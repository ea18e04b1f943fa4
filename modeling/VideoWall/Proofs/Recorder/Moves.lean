/-
Moves of a camera end in a stop.

A move that lasts for a while asks for the move, rests if that was granted,
and asks for the stop in any case (`moveFor_eq_ask`). So do all moves of a
camera in every run in which they are held at the same time, whatever becomes
of their requests: each has its own stop after its own answer, and what it
comes to is decided by its own two answers (`EndsInStop`). Whatever the order
in which the requests of all of them are sent, a stop comes behind every move.

All this is said of a recorder that requests can be sent to. An accepted
configuration has no other (`isWeb_of_check`); without one nothing is sent,
and every move fails at once.
-/
import VideoWall.Config.Check
import VideoWall.Proofs.Json.Records
import VideoWall.Proofs.Recorder.Endpoints
import VideoWall.Proofs.Recorder.Talks
import VideoWall.Recorder.Camera

namespace VideoWall.Recorder

open Talks

-- ============================================================== requests

/-- Whether an answer says that the request was carried out. -/
def Answer.isGood : Answer → Bool
  | .reply status _ => Client.isSuccess status
  | .late | .disrupted _ => false

namespace Client

variable {u : Url} {answer : Answer} {config : Config}

/-- What is made of the answer to a request for an address. -/
def verdict (u : Url) (request : Request) : Answer → Except Failure Unit
  | .reply status _ => if isSuccess status then .ok () else .error (.status u.toText status)
  | .late => .error (.timeout u.toText)
  | .disrupted d => .error (.network u.toText request.url.toText d)

/-- The verdict on an answer is good exactly when the answer is. -/
theorem verdict_eq_ok_iff {request : Request} :
    verdict u request answer = .ok () ↔ answer.isGood = true := by
  cases answer with
  | reply status body => cases h : isSuccess status <;> simp [verdict, Answer.isGood, h]
  | late => simp [verdict, Answer.isGood]
  | disrupted d => simp [verdict, Answer.isGood]

variable (client : Client)

/-- A value is sent in one request, and its answer decides. -/
theorem post_eq_ask (h : isWeb u = true) (body : Json.Value) :
    client.post u body = .ask (client.request .post u (some body.compact)) fun answer =>
      .done (verdict u (client.request .post u (some body.compact)) answer) := by
  change Dialogue.andThen (client.send .post u (some body.compact)) _ = _
  rw [send, if_pos h]
  refine congrArg (Dialogue.ask _) (funext fun answer => ?_)
  cases answer with
  | reply status bytes =>
      cases hstatus : isSuccess status <;> simp [Dialogue.andThen, verdict, hstatus] <;> rfl
  | late => rfl
  | disrupted d => rfl

/-- Nothing is sent to an address of another scheme. -/
theorem post_eq_done (h : isWeb u = false) (body : Json.Value) :
    client.post u body = .done
      (verdict u (client.request .post u (some body.compact)) (.disrupted .wrongScheme)) := by
  change Dialogue.andThen (client.send .post u (some body.compact)) _ = _
  rw [send, if_neg (Bool.not_eq_true _ ▸ h)]
  rfl

private theorem body_request (method : Method) (u : Url) (body : Option String) :
    (client.request method u body).body = body := by
  rw [request]
  cases loginIn? u <;> rfl

-- =============================================================== schemes

private theorem scheme_popEmptySegment (u : Url) : u.popEmptySegment.scheme = u.scheme := by
  unfold Url.popEmptySegment
  split
  · rfl
  · split <;> rfl

private theorem scheme_addSegments (u : Url) (names : List (List Char)) :
    (u.addSegments names).scheme = u.scheme := by
  unfold Url.addSegments
  split <;> rfl

private theorem scheme_withTrailingSlash (u : Url) : u.withTrailingSlash.scheme = u.scheme := by
  unfold Url.withTrailingSlash
  split
  · rfl
  · split <;> rfl

/-- An endpoint is reached like the base address. -/
private theorem isWeb_endpoint (names : List String) :
    isWeb (client.endpoint names) = isWeb client.base := by
  rw [isWeb, isWeb, endpoint, scheme_addSegments, scheme_popEmptySegment]

/-- An endpoint is on the web when its base is. -/
theorem isWeb_cameraEndpoint (stream action : String) :
    isWeb (client.cameraEndpoint stream action) = isWeb client.base :=
  isWeb_endpoint client _

variable {client}

/-- Requests can be sent to the recorder of an accepted configuration. -/
private theorem isWeb_of_check (hcheck : config.check = .ok ()) (hc : ofConfig config = .ok client)
    : isWeb client.base = true := by
  obtain ⟨base, hbase, rfl⟩ := exists_of_map hc
  rw [baseOf] at hbase
  cases hparse : Url.parse config.server.toList with
  | error e =>
      rw [hparse] at hbase
      cases hbase
  | ok u =>
      rw [hparse] at hbase
      dsimp only at hbase
      split at hbase
      case isTrue => cases hbase
      case isFalse =>
        cases hbase
        rw [isWeb, scheme_withTrailingSlash]
        by_contra hscheme
        have hother : Config.isWebScheme u.scheme = false := Bool.eq_false_iff.2 hscheme
        have hfault : config.check
            = .error (.scheme config.server (String.ofList u.scheme)) := by
          rw [Config.check, hparse]
          change (if (!Config.isWebScheme u.scheme) = true then _ else _ : Except _ _) = _
          rw [hother]
          rfl
        rw [hfault] at hcheck
        cases hcheck

end Client

-- ================================================================ cameras

namespace Camera

variable (c : Camera) {move : PtzMove} {answer : Answer} {n : Nat}

/-- The request that starts a move. -/
def moveRequest (move : PtzMove) : Request :=
  c.client.request .post (c.client.cameraEndpoint c.stream "move")
    (some move.clamped.toJson.compact)

/-- The request that stops the camera. -/
def stopRequest : Request :=
  c.client.request .post (c.client.cameraEndpoint c.stream "stop")
    (some (Json.Value.object []).compact)

/-- What is made of the answer to the request for a move. -/
def moved (move : PtzMove) (answer : Answer) : Except Report Unit :=
  reported ("PTZ move failed on '" ++ c.stream ++ "'")
    (Client.verdict (c.client.cameraEndpoint c.stream "move") (c.moveRequest move) answer)

/-- What is made of the answer to the request for a stop. -/
def stopped (answer : Answer) : Except Report Unit :=
  reported ("PTZ stop failed on '" ++ c.stream ++ "'")
    (Client.verdict (c.client.cameraEndpoint c.stream "stop") c.stopRequest answer)

variable {c}

theorem reported_eq_ok_iff {context : String} {r : Except Failure Unit} :
    reported context r = .ok () ↔ r = .ok () := by
  cases r <;> simp [reported, Except.mapError]

/-- A move succeeds exactly when it is answered well. -/
theorem moved_eq_ok_iff : c.moved move answer = .ok () ↔ answer.isGood = true :=
  reported_eq_ok_iff.trans Client.verdict_eq_ok_iff

/-- A stop succeeds exactly when it is answered well. -/
theorem stopped_eq_ok_iff : c.stopped answer = .ok () ↔ answer.isGood = true :=
  reported_eq_ok_iff.trans Client.verdict_eq_ok_iff

/-- The members of an object are written with at least one character. -/
theorem renderMembers_ne_nil (m : String × Json.Value) (others : List (String × Json.Value)) :
    Json.renderMembers (m :: others) ≠ [] := by
  cases others <;> exact List.cons_ne_nil _ _

/-- No move is asked for as a stop is: its body has members. -/
private theorem moveRequest_ne_stopRequest (c : Camera) (move : PtzMove) :
    c.moveRequest move ≠ c.stopRequest := by
  intro h
  have hbody := congrArg Request.body h
  rw [moveRequest, stopRequest, Client.body_request, Client.body_request] at hbody
  have htext : move.clamped.toJson.render = (Json.Value.object []).render :=
    String.ofList_injective (Option.some.inj hbody)
  obtain ⟨-, hmembers⟩ := List.cons.inj htext
  exact renderMembers_ne_nil _ _ (List.append_cancel_right hmembers)

/-- On the web a move is asked for with one request. -/
private theorem startMove_eq_ask (h : Client.isWeb c.client.base = true) (move : PtzMove) :
    c.startMove move = .ask (c.moveRequest move) fun answer => .done (c.moved move answer) := by
  rw [← Client.isWeb_cameraEndpoint c.client c.stream "move"] at h
  change Dialogue.andThen (c.client.ptzMove c.stream move) _ = _
  rw [Client.ptzMove, Client.post_eq_ask c.client h]
  rfl

private theorem stop_eq_ask (h : Client.isWeb c.client.base = true) :
    c.stop = .ask c.stopRequest fun answer => .done (c.stopped answer) := by
  rw [← Client.isWeb_cameraEndpoint c.client c.stream "stop"] at h
  change Dialogue.andThen (c.client.ptzStop c.stream) _ = _
  rw [Client.ptzStop, Client.post_eq_ask c.client h]
  rfl

/-- Off the web a move is refused before it is asked for. -/
private theorem startMove_eq_done (h : Client.isWeb c.client.base = false) (move : PtzMove) :
    c.startMove move = .done (c.moved move (.disrupted .wrongScheme)) := by
  rw [← Client.isWeb_cameraEndpoint c.client c.stream "move"] at h
  change Dialogue.andThen (c.client.ptzMove c.stream move) _ = _
  rw [Client.ptzMove, Client.post_eq_done c.client h]
  rfl

private theorem stop_eq_done (h : Client.isWeb c.client.base = false) :
    c.stop = .done (c.stopped (.disrupted .wrongScheme)) := by
  rw [← Client.isWeb_cameraEndpoint c.client c.stream "stop"] at h
  change Dialogue.andThen (c.client.ptzStop c.stream) _ = _
  rw [Client.ptzStop, Client.post_eq_done c.client h]
  rfl

/-- A move that was granted lasts for its time, and one that was not is
stopped at once. -/
theorem moveFor_eq_ask (h : Client.isWeb c.client.base = true) (move : PtzMove) (n : Nat) :
    c.moveFor move n = .ask (c.moveRequest move) fun answer =>
      match c.moved move answer with
      | .ok () => .pause n (.ask c.stopRequest fun answer => .done (c.stopped answer))
      | .error r => .ask c.stopRequest fun _ => .done (.error r) := by
  change Dialogue.andThen (c.startMove move) _ = _
  rw [startMove_eq_ask h]
  refine congrArg (Dialogue.ask _) (funext fun answer => ?_)
  rw [Dialogue.andThen]
  cases c.moved move answer with
  | ok done => rw [stop_eq_ask h]
  | error r =>
      change Dialogue.andThen c.stop _ = _
      rw [stop_eq_ask h]
      rfl

/-- Where nothing can be sent, a move fails without a request. -/
private theorem moveFor_eq_done (h : Client.isWeb c.client.base = false) (move : PtzMove) (n : Nat)
    : c.moveFor move n = .done (c.moved move (.disrupted .wrongScheme)) := by
  change Dialogue.andThen (c.startMove move) _ = _
  rw [startMove_eq_done h]
  change Dialogue.andThen c.stop _ = _
  rw [stop_eq_done h]
  rfl

end Camera

-- ============================================================ timed moves

/-- A move that lasts for a while: any velocities for any time, or a short
move in one direction. -/
inductive TimedMove where
  | moveFor (move : PtzMove) (duration : Nat)
  | nudge (direction : PtzDirection)

namespace TimedMove

/-- What is said to a camera. -/
def dialogue (c : Camera) : TimedMove → Dialogue (Except Report Unit)
  | .moveFor move duration => c.moveFor move duration
  | .nudge direction => c.nudge direction

/-- The move that is asked for. -/
def move : TimedMove → PtzMove
  | .moveFor move _ => move
  | .nudge direction => direction.motion Camera.nudgeSpeed

/-- For how long it lasts. -/
def duration : TimedMove → Nat
  | .moveFor _ duration => duration
  | .nudge _ => Camera.nudgeLength

/-- The turns of a move: it asks for the move, rests if that was granted, and
asks for the stop when it has heard the answer to the move. -/
def turns (c : Camera) (m : TimedMove) (moved stopped : Answer) : List Turn :=
  [.asks (c.moveRequest m.move), .hears moved]
    ++ (if moved.isGood then [.rests m.duration, .wakes] else [])
    ++ [.asks c.stopRequest, .hears stopped]

variable {c : Camera} {m : TimedMove} {moved stopped : Answer} {i : Nat} {t : List Event}
variable {x : Turn} {result : Except Report Unit}

/-- A timed move is a dialogue of its own camera. -/
theorem dialogue_eq (c : Camera) (m : TimedMove) :
    m.dialogue c = c.moveFor m.move m.duration := by
  cases m <;> rfl

/-- Whatever the answers, a move takes its turns, and its result is that of the
request for the move if this failed, and else that of the stop. -/
private theorem comesTo_dialogue (h : Client.isWeb c.client.base = true) {turns : List Turn}
    (hcomes : ComesTo (m.dialogue c) turns result) :
    ∃ moved stopped, turns = m.turns c moved stopped
      ∧ (moved.isGood = false → result = c.moved m.move moved)
      ∧ (moved.isGood = true → result = c.stopped stopped) := by
  rw [dialogue_eq, Camera.moveFor_eq_ask h] at hcomes
  cases hcomes with
  | ask moved hcomes =>
      dsimp only at hcomes
      cases hmoved : c.moved m.move moved with
      | ok done =>
          have hgood : moved.isGood = true := Camera.moved_eq_ok_iff.1 hmoved
          rw [hmoved] at hcomes
          obtain _ | _ | ⟨hcomes⟩ := hcomes
          obtain _ | ⟨stopped, hcomes⟩ := hcomes
          cases hcomes
          refine ⟨moved, stopped, ?_, ?_, fun _ => rfl⟩
          · rw [TimedMove.turns, if_pos hgood]
            rfl
          · rw [hgood]
            nofun
      | error r =>
          have hbad : ¬ moved.isGood = true := by
            rw [← Camera.moved_eq_ok_iff, hmoved]
            nofun
          rw [hmoved] at hcomes
          obtain _ | ⟨stopped, hcomes⟩ := hcomes
          cases hcomes
          refine ⟨moved, stopped, ?_, fun _ => hmoved.symm, fun hgood => absurd hgood hbad⟩
          rw [TimedMove.turns, if_neg hbad]
          rfl

/-- After the request for the move the only request is that for the stop. -/
theorem turns_eq_cons (c : Camera) (m : TimedMove) (moved stopped : Answer) :
    ∃ later, m.turns c moved stopped = .asks (c.moveRequest m.move) :: later
      ∧ ∀ request, .asks request ∈ later ↔ request = c.stopRequest := by
  refine ⟨_, rfl, fun request => ?_⟩
  cases moved.isGood <;> simp

/-- Between the answer to a move that was granted and its stop at least the
time of the move passes. -/
private theorem lasts {dialogues : List (Dialogue (Except Report Unit))}
    {results : List (Except Report Unit)} (hrun : Run dialogues t results)
    (hturns : turnsOf i t = m.turns c moved stopped) (hgood : moved.isGood = true) :
    ∃ before between after, t = before ++ .turn i (.hears moved)
        :: (between ++ .turn i (.asks c.stopRequest) :: after)
      ∧ m.duration ≤ passed between := by
  rw [turns, if_pos hgood] at hturns
  obtain ⟨before, rest, rfl, -, hrest⟩ := split_of_turnsOf [.asks (c.moveRequest m.move)] hturns
  obtain ⟨between, after, rfl, hbetween, -⟩ := split_of_turnsOf [.rests m.duration, .wakes] hrest
  obtain ⟨start, rest, rfl, -, hrest⟩ := split_of_turnsOf [] hbetween
  obtain ⟨pause, finish, rfl, hpause, -⟩ := split_of_turnsOf [] hrest
  refine ⟨before, _, after, rfl, ?_⟩
  have hwhole : before ++ .turn i (.hears moved) :: ((start ++ .turn i (.rests m.duration)
        :: (pause ++ .turn i .wakes :: finish)) ++ .turn i (.asks c.stopRequest) :: after)
      = (before ++ .turn i (.hears moved) :: start) ++ .turn i (.rests m.duration)
        :: (pause ++ .turn i .wakes :: (finish ++ .turn i (.asks c.stopRequest) :: after)) := by
    simp
  have hpassed : m.duration ≤ passed pause := hrun.rests hwhole hpause
  calc m.duration ≤ passed pause := hpassed
    _ ≤ passed (start ++ .turn i (.rests m.duration) :: (pause ++ .turn i .wakes :: finish)) := by
      rw [passed_append, ← List.singleton_append, passed_append, passed_append]
      omega

end TimedMove

-- ============================================================= the theorem

/-- One of the moves of a camera in a run, with the answers that it gets and
what it comes to: it takes just its turns, one request for the move and after
its answer one for the stop; it lasts for its time if the move was granted; it
succeeds exactly if both requests did, and else fails as that for the move if
that one failed. -/
structure EndsInStop (c : Camera) (m : TimedMove) (i : Nat) (t : List Event)
    (moved stopped : Answer) (result : Except Report Unit) : Prop where
  turns : turnsOf i t = m.turns c moved stopped
  lasts : moved.isGood = true → ∃ before between after, t = before ++ .turn i (.hears moved)
      :: (between ++ .turn i (.asks c.stopRequest) :: after)
    ∧ m.duration ≤ passed between
  succeeds : result = .ok () ↔ moved.isGood = true ∧ stopped.isGood = true
  moveFails : moved.isGood = false → result = c.moved m.move moved
  stopFails : moved.isGood = true → result = c.stopped stopped

variable {c : Camera} {moves : List TimedMove} {t : List Event}
variable {results : List (Except Report Unit)}

/-- Every move of a run ends in a stop. -/
theorem exists_endsInStop (h : Client.isWeb c.client.base = true)
    (hrun : Run (moves.map (TimedMove.dialogue c)) t results) {i : Nat} {m : TimedMove}
    (hm : moves[i]? = some m) :
    ∃ moved stopped result, results[i]? = some result
      ∧ EndsInStop c m i t moved stopped result := by
  have hdialogue : (moves.map (TimedMove.dialogue c))[i]? = some (m.dialogue c) := by
    rw [List.getElem?_map, hm]
    rfl
  obtain ⟨result, hresult, hcomes⟩ := hrun.comesTo hdialogue
  obtain ⟨moved, stopped, hturns, hmove, hstop⟩ := TimedMove.comesTo_dialogue h hcomes
  refine ⟨moved, stopped, result, hresult, hturns, TimedMove.lasts hrun hturns, ?_, hmove, hstop⟩
  cases hgood : moved.isGood with
  | true =>
      rw [hstop hgood, Camera.stopped_eq_ok_iff]
      simp
  | false =>
      rw [hmove hgood, Camera.moved_eq_ok_iff, hgood]
      simp

/-- Behind the request for a move the request for its stop is sent. -/
private theorem stopRequest_mem (h : Client.isWeb c.client.base = true)
    (hrun : Run (moves.map (TimedMove.dialogue c)) t results) {front back : List Request}
    {move : PtzMove} (hsent : sent t = front ++ c.moveRequest move :: back) :
    c.stopRequest ∈ back := by
  obtain ⟨before, i, after, rfl, rfl⟩ := split_of_sent front hsent
  obtain ⟨d, hd⟩ := hrun.exists_dialogue rfl
  rw [List.getElem?_map, Option.map_eq_some_iff] at hd
  obtain ⟨m, hm, rfl⟩ := hd
  obtain ⟨moved, stopped, result, -, hends⟩ := exists_endsInStop h hrun hm
  obtain ⟨later, hturns, hlater⟩ := m.turns_eq_cons c moved stopped
  have hwhole := hends.turns
  rw [hturns, turnsOf_at_place] at hwhole
  cases hbefore : turnsOf i before with
  | nil =>
      rw [hbefore] at hwhole
      obtain ⟨-, rfl⟩ := List.cons.inj hwhole
      exact mem_sent_of_asks ((hlater _).2 rfl)
  | cons first others =>
      rw [hbefore] at hwhole
      obtain ⟨-, rfl⟩ := List.cons.inj hwhole
      have hmove : .asks (c.moveRequest move)
          ∈ others ++ .asks (c.moveRequest move) :: turnsOf i after := by simp
      exact absurd ((hlater _).1 hmove) (Camera.moveRequest_ne_stopRequest c move)

/-- Where nothing can be sent, nothing is. -/
private theorem fails_unsent (h : Client.isWeb c.client.base = false)
    (hrun : Run (moves.map (TimedMove.dialogue c)) t results) :
    sent t = [] ∧ ∀ (i : Nat) (m : TimedMove), moves[i]? = some m →
      results[i]? = some (c.moved m.move (.disrupted .wrongScheme)) := by
  have hsilent : ∀ (i : Nat) (m : TimedMove), moves[i]? = some m →
      turnsOf i t = [] ∧ results[i]? = some (c.moved m.move (.disrupted .wrongScheme)) := by
    intro i m hm
    have hdialogue : (moves.map (TimedMove.dialogue c))[i]? = some (m.dialogue c) := by
      rw [List.getElem?_map, hm]
      rfl
    obtain ⟨result, hresult, hcomes⟩ := hrun.comesTo hdialogue
    rw [m.dialogue_eq, Camera.moveFor_eq_done h] at hcomes
    generalize hturns : turnsOf i t = turns at hcomes
    cases hcomes
    exact ⟨rfl, hresult⟩
  refine ⟨?_, fun i m hm => (hsilent i m hm).2⟩
  cases hsent : sent t with
  | nil => rfl
  | cons request others =>
      obtain ⟨before, i, after, rfl, -⟩ := split_of_sent [] hsent
      obtain ⟨d, hd⟩ := hrun.exists_dialogue rfl
      rw [List.getElem?_map, Option.map_eq_some_iff] at hd
      obtain ⟨m, hm, rfl⟩ := hd
      have hnone := (hsilent i m hm).1
      rw [turnsOf_at_place] at hnone
      simp at hnone

/-- Moves of a camera that are held at the same time, whatever their order and
their answers. They can be held to their ends. If requests can be sent to the
recorder, then each of them ends in its stop, and among the requests of all of
them a stop comes behind every move; and if not, nothing is sent and each of
them fails. An accepted configuration has only recorders of the first kind. -/
theorem moves_end_in_stops (c : Camera) (moves : List TimedMove) :
    (∀ answer : Request → Answer, ∃ t, Run (moves.map (TimedMove.dialogue c)) t
        (moves.map fun m => outcome answer (m.dialogue c)))
      ∧ (∀ (t : List Event) (results : List (Except Report Unit)),
          Run (moves.map (TimedMove.dialogue c)) t results →
          (Client.isWeb c.client.base = true →
            (∀ (i : Nat) (m : TimedMove), moves[i]? = some m →
                ∃ moved stopped result, results[i]? = some result
                  ∧ EndsInStop c m i t moved stopped result)
              ∧ ∀ (front back : List Request) (move : PtzMove),
                  sent t = front ++ c.moveRequest move :: back → c.stopRequest ∈ back)
          ∧ (Client.isWeb c.client.base = false → sent t = []
              ∧ ∀ (i : Nat) (m : TimedMove), moves[i]? = some m →
                  results[i]? = some (c.moved m.move (.disrupted .wrongScheme))))
      ∧ ∀ config : Config, config.check = .ok () → Client.ofConfig config = .ok c.client →
          Client.isWeb c.client.base = true := by
  refine ⟨fun answer => ?_, fun t results hrun => ⟨fun hweb => ⟨?_, ?_⟩, fun hweb => ?_⟩,
    fun config => Client.isWeb_of_check⟩
  · have hrun := exists_run answer (moves.map (TimedMove.dialogue c))
    rwa [List.map_map] at hrun
  · exact fun i m hm => exists_endsInStop hweb hrun hm
  · exact fun front back move hsent => stopRequest_mem hweb hrun hsent
  · exact fails_unsent hweb hrun

/-- A camera of the recorder at `http://nvr.local/nvr`. -/
def dome : Camera := ⟨Client.nvrClient, "dome"⟩

/-- Two short moves, one to each side. -/
def nudges : List TimedMove := [.nudge .left, .nudge .right]

/-- The moves overlap: the first one is refused and its stop comes while the
second one lasts, whose own stop has no answer. -/
def overlapping : List Event :=
  [ .turn 0 (.asks (dome.moveRequest (TimedMove.nudge .left).move)),
    .turn 1 (.asks (dome.moveRequest (TimedMove.nudge .right).move)),
    .turn 1 (.hears (.reply 200 [])),
    .turn 1 (.rests 400),
    .turn 0 (.hears (.reply 500 [])),
    .passes 150,
    .turn 0 (.asks dome.stopRequest),
    .turn 0 (.hears (.reply 200 [])),
    .passes 250,
    .turn 1 .wakes,
    .turn 1 (.asks dome.stopRequest),
    .turn 1 (.hears .late) ]

private theorem run_overlapping : Run (nudges.map (TimedMove.dialogue dome)) overlapping
    [dome.moved (TimedMove.nudge .left).move (.reply 500 []), dome.stopped .late] := by
  have hdialogues : nudges.map (TimedMove.dialogue dome)
      = [dome.moveFor (TimedMove.nudge .left).move 400,
          dome.moveFor (TimedMove.nudge .right).move 400] := rfl
  rw [hdialogues, Camera.moveFor_eq_ask rfl, Camera.moveFor_eq_ask rfl]
  exact ⟨0, 400, .step (.turn rfl .asks) <| .step (.turn rfl .asks) <|
    .step (.turn rfl (.hears _)) <| .step (.turn rfl .rests) <| .step (.turn rfl (.hears _)) <|
    .step (.passes 150) <| .step (.turn rfl .asks) <| .step (.turn rfl (.hears _)) <|
    .step (.passes 250) <| .step (.turn rfl (.wakes (by decide))) <|
    .step (.turn rfl .asks) <| .step (.turn rfl (.hears _)) <| .stay _⟩

/-- The second move lasts for its time and fails by its stop, and both stops
come behind its request. -/
theorem moves_end_in_stops_of_dome :
    Config.check { server := "http://nvr.local/nvr" } = .ok ()
      ∧ Client.ofConfig { server := "http://nvr.local/nvr" } = .ok dome.client
      ∧ Run (nudges.map (TimedMove.dialogue dome)) overlapping
        [dome.moved (TimedMove.nudge .left).move (.reply 500 []), dome.stopped .late]
      ∧ (∃ moved stopped result, [dome.moved (TimedMove.nudge .left).move (.reply 500 []),
            dome.stopped .late][1]? = some result
          ∧ EndsInStop dome (.nudge .right) 1 overlapping moved stopped result)
      ∧ dome.stopRequest ∈ [dome.stopRequest, dome.stopRequest] := by
  have hcheck : Config.check { server := "http://nvr.local/nvr" } = .ok () := by decide +kernel
  have hclient : Client.ofConfig { server := "http://nvr.local/nvr" } = .ok dome.client := rfl
  obtain ⟨-, hruns, hwebs⟩ := moves_end_in_stops dome nudges
  have hweb : Client.isWeb dome.client.base = true := hwebs _ hcheck hclient
  obtain ⟨hends, hbehind⟩ := (hruns overlapping _ run_overlapping).1 hweb
  exact ⟨hcheck, hclient, run_overlapping, hends 1 (.nudge .right) rfl,
    hbehind [dome.moveRequest (TimedMove.nudge .left).move] [dome.stopRequest, dome.stopRequest]
      (TimedMove.nudge .right).move rfl⟩

end VideoWall.Recorder
