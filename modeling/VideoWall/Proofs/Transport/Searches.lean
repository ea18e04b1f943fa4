/-
Demuxing survives whatever bytes it gets.

Lengths and offsets in a transport stream come from whoever sends it. A
byte that is read without being there would be a fault (`OutOfRange`); there
is none, in whatever state the demuxer is and whatever chunks it is given.

Two searches go through bytes with a cursor that the bytes move: the search
for packets, and the one for the video in a map table. What each of them
does is told place by place, by a relation that knows nothing of fuel
(`Search`, `EntrySearch`). The searches of the demuxer end as these do, so
the fuel is never what ends them (`search_packetsWithin`,
`entrySearch_videoEntry?`); and their cursors only rise, each time by a
byte, a packet or an entry (`Search.rises`, `EntrySearch.rises`), so there
are no more steps than bytes.
-/
import VideoWall.Proofs.Transport.Bundles

namespace VideoWall.Transport

open Bitstream

variable {bytes body : List UInt8} {cursor fuel : Nat} {cursors : List Nat}

-- ================================================================ packets

/-- A search for packets from a place on: the places that it looks at, and
the packets that it finds. -/
inductive Search (bytes : List UInt8) : Nat → List Nat → List (List UInt8) → Prop where
  | ends {cursor : Nat} (hshort : bytes.length < cursor + packetLength) :
      Search bytes cursor [] []
  | passes {cursor : Nat} {cursors : List Nat} {found : List (List UInt8)}
      (hroom : cursor + packetLength ≤ bytes.length) (hbyte : bytes[cursor]? ≠ some syncByte)
      (later : Search bytes (cursor + 1) cursors found) :
      Search bytes cursor (cursor :: cursors) found
  | takes {cursor : Nat} {cursors : List Nat} {found : List (List UInt8)}
      (hroom : cursor + packetLength ≤ bytes.length) (hbyte : bytes[cursor]? = some syncByte)
      (later : Search bytes (cursor + packetLength) cursors found) :
      Search bytes cursor (cursor :: cursors) ((bytes.drop cursor).take packetLength :: found)

/-- Places that only rise from a start, and are places of so many bytes. -/
structure Rising (start length : Nat) (cursors : List Nat) : Prop where
  rises : cursors.Pairwise (· < ·)
  from_start : ∀ place ∈ cursors, start ≤ place
  within : ∀ place ∈ cursors, place < length
  count : cursors.length ≤ length - start

theorem rising_nil (start length : Nat) : Rising start length [] :=
  ⟨.nil, nofun, nofun, Nat.zero_le _⟩

/-- A search that goes on from a later place rises. -/
theorem Rising.cons {start next length : Nat} (h : Rising next length cursors)
    (hnext : start < next) (hplace : start < length) : Rising start length (start :: cursors) := by
  refine ⟨List.pairwise_cons.2 ⟨fun place hmem => ?_, h.rises⟩, ?_, ?_, ?_⟩
  · exact Nat.lt_of_lt_of_le hnext (h.from_start place hmem)
  · intro place hmem
    rcases List.mem_cons.1 hmem with rfl | hlater
    · exact Nat.le_refl place
    · exact Nat.le_of_lt (Nat.lt_of_lt_of_le hnext (h.from_start place hlater))
  · intro place hmem
    rcases List.mem_cons.1 hmem with rfl | hlater
    · exact hplace
    · exact h.within place hlater
  · have hcount := h.count
    rw [List.length_cons]
    omega

/-- A search only goes on. -/
private theorem Search.rising {found : List (List UInt8)} (h : Search bytes cursor cursors found) :
    Rising cursor bytes.length cursors := by
  have hpositive : 0 < packetLength := by decide
  induction h with
  | ends hshort => exact rising_nil _ _
  | passes hroom hbyte later ih => exact ih.cons (by omega) (by omega)
  | takes hroom hbyte later ih => exact ih.cons (by omega) (by omega)

/-- The packets that are found from a place on are those of a search. -/
private theorem search_packetsWithin (hfuel : bytes.length ≤ cursor + fuel) :
    ∃ cursors, Search bytes cursor cursors (packetsWithin fuel (bytes.drop cursor)) := by
  have hpositive : 0 < packetLength := by decide
  -- the fuel is as long as what is left of the bytes, so the search never stops for
  -- want of it
  induction fuel generalizing cursor with
  | zero => exact ⟨[], .ends (by omega)⟩
  | succ fuel ih =>
      rcases Nat.lt_or_ge cursor bytes.length with hplace | hend
      case inr =>
        rw [List.drop_eq_nil_of_le hend]
        exact ⟨[], .ends (by omega)⟩
      case inl =>
        have hcut : bytes.drop cursor = bytes[cursor] :: bytes.drop (cursor + 1) :=
          List.drop_eq_getElem_cons hplace
        have hlength : ((bytes.drop cursor).take packetLength).length
            = min packetLength (bytes.length - cursor) := by
          rw [List.length_take, List.length_drop]
        rw [hcut, packetsWithin, ← hcut]
        by_cases hshort : bytes.length < cursor + packetLength
        · rw [if_pos (by omega)]
          exact ⟨[], .ends hshort⟩
        · have hroom : cursor + packetLength ≤ bytes.length := Nat.le_of_not_lt hshort
          rw [if_neg (by omega)]
          by_cases hsync : bytes[cursor] = syncByte
          · have hnext : bytes.length ≤ cursor + packetLength + fuel := by omega
            obtain ⟨cursors, later⟩ := ih hnext
            rw [if_pos hsync, List.drop_drop]
            exact ⟨_, .takes hroom (by rw [List.getElem?_eq_getElem hplace, hsync]) later⟩
          · have hnext : bytes.length ≤ cursor + 1 + fuel := by omega
            obtain ⟨cursors, later⟩ := ih hnext
            rw [if_neg hsync]
            refine ⟨_, .passes hroom ?_ later⟩
            rw [List.getElem?_eq_getElem hplace]
            exact fun h => hsync (Option.some.inj h)

-- ================================================================ entries

/-- A search for the video in a map table, from a place on: the places of
the entries that it looks at, and the stream that it finds. -/
inductive EntrySearch (body : List UInt8) : Nat → List Nat → Option Nat → Prop where
  | ends {cursor : Nat} (hshort : body.length < cursor + 5) : EntrySearch body cursor [] none
  | finds {cursor : Nat} {hi lo : UInt8} (hroom : cursor + 5 ≤ body.length)
      (htype : body[cursor]? = some videoType) (hhi : body[cursor + 1]? = some hi)
      (hlo : body[cursor + 2]? = some lo) :
      EntrySearch body cursor [cursor] (some (word13 hi lo))
  | passes {cursor : Nat} {type hi lo : UInt8} {cursors : List Nat} {found : Option Nat}
      (hroom : cursor + 5 ≤ body.length) (htype : body[cursor]? = some type)
      (hother : type ≠ videoType) (hhi : body[cursor + 3]? = some hi)
      (hlo : body[cursor + 4]? = some lo)
      (later : EntrySearch body (cursor + 5 + word12 hi lo) cursors found) :
      EntrySearch body cursor (cursor :: cursors) found

/-- A search for an entry only goes on. -/
private theorem EntrySearch.rising {found : Option Nat} (h : EntrySearch body cursor cursors found)
    : Rising cursor body.length cursors := by
  induction h with
  | ends hshort => exact rising_nil _ _
  | @finds cursor hi lo hroom htype hhi hlo =>
      exact (rising_nil (cursor + 1) body.length).cons (by omega) (by omega)
  | passes hroom htype hother hhi hlo later ih => exact ih.cons (by omega) (by omega)

/-- What is found in a map table from a place on is what a search finds. -/
private theorem entrySearch_videoEntry? (hfuel : body.length ≤ cursor + fuel) :
    ∃ cursors found, videoEntry? body fuel cursor = .ok found
      ∧ EntrySearch body cursor cursors found := by
  induction fuel generalizing cursor with
  | zero => exact ⟨[], none, rfl, .ends (by omega)⟩
  | succ fuel ih =>
      unfold videoEntry?
      by_cases hshort : body.length < cursor + 5
      · rw [if_pos hshort]
        exact ⟨[], none, rfl, .ends hshort⟩
      · have hroom : cursor + 5 ≤ body.length := Nat.le_of_not_lt hshort
        rw [if_neg hshort, byteAt_of_lt (show cursor < _ by omega),
          byteAt_of_lt (show cursor + 1 < _ by omega),
          byteAt_of_lt (show cursor + 2 < _ by omega),
          byteAt_of_lt (show cursor + 3 < _ by omega),
          byteAt_of_lt (show cursor + 4 < _ by omega)]
        simp only [bind, Except.bind]
        split
        case isTrue htype =>
          refine ⟨[cursor], _, rfl, .finds hroom ?_ (List.getElem?_eq_getElem (by omega))
            (List.getElem?_eq_getElem (by omega))⟩
          rw [List.getElem?_eq_getElem (by omega), htype]
        case isFalse hother =>
          have hnext : body.length ≤ cursor + 5 + word12 (body.get ⟨cursor + 3, by omega⟩)
              (body.get ⟨cursor + 4, by omega⟩) + fuel := by omega
          obtain ⟨cursors, found, hfound, later⟩ := ih hnext
          exact ⟨_, found, hfound, .passes hroom (List.getElem?_eq_getElem (by omega)) hother
            (List.getElem?_eq_getElem (by omega)) (List.getElem?_eq_getElem (by omega)) later⟩

-- =============================================================== demuxing

namespace Demuxer

/-- What can be done with each of some things can be done with one after the
other. -/
theorem exists_foldlM {α : Type} {f : Demuxer → α → Checked Demuxer} {xs : List α}
    (h : ∀ x ∈ xs, ∀ d, ∃ e, f d x = .ok e) (d : Demuxer) : ∃ e, xs.foldlM f d = .ok e := by
  induction xs generalizing d with
  | nil => exact ⟨d, rfl⟩
  | cons x rest ih =>
      obtain ⟨next, htaken⟩ := h x List.mem_cons_self d
      obtain ⟨e, hrest⟩ := ih (fun other hother => h other (List.mem_cons_of_mem _ hother)) next
      refine ⟨e, ?_⟩
      rw [List.foldlM_cons, htaken]
      exact hrest

/-- Every chunk can be pushed. -/
theorem exists_push (d : Demuxer) (chunk : List UInt8) : ∃ e, d.push chunk = .ok e := by
  refine exists_foldlM (fun packet hpacket d => ?_) d
  obtain ⟨-, e, -, htaken, -⟩ := d.takePacket_takes (framed_of_mem_packetsWithin hpacket)
  exact ⟨e, htaken⟩

/-- A demuxer can always be finished. -/
theorem exists_finish (d : Demuxer) : ∃ units, d.finish = .ok units := by
  unfold finish
  rw [flush_eq]
  exact ⟨_, rfl⟩

end Demuxer

/-- What becomes of a segment, when its packets have been taken. -/
private theorem demux_of_push {segment : List UInt8} {d : Demuxer}
    (h : ({} : Demuxer).push segment = .ok d) :
    demux segment
      = if d.videoStream.isNone then .error .noVideo else d.finish.mapError .damaged := by
  unfold demux
  rw [h]
  obtain ⟨mapStream, videoStream, pending, units⟩ := d
  cases videoStream with
  | none => rfl
  | some stream => rfl

/-- Whatever state a demuxer is in and whatever chunks are pushed, no byte is
read that is not there, and the units come out in the end. So does what
sections, tables and units are read as, by itself and from any payload. A
segment is damaged by no bytes: it has units, or it has no video. And both
searches end by themselves, with a cursor that only rises. -/
theorem demuxing_survives :
    (∀ (d : Demuxer) (chunks : List (List UInt8)),
      ∃ e units, chunks.foldlM Demuxer.push d = .ok e ∧ e.finish = .ok units)
    ∧ (∀ payload : List UInt8, (∀ table, ∃ body, sectionBody? payload table = .ok body)
        ∧ (∃ stream, mapStream? payload = .ok stream)
        ∧ (∃ stream, videoStream? payload = .ok stream)
        ∧ ∃ outcome, AccessUnit.read payload = .ok outcome)
    ∧ (∀ segment : List UInt8, ∃ d, ({} : Demuxer).push segment = .ok d
        ∧ ((d.videoStream = none ∧ demux segment = .error .noVideo)
          ∨ ∃ units, d.finish = .ok units ∧ demux segment = .ok units))
    ∧ (∀ bytes : List UInt8, ∃ cursors, Search bytes 0 cursors (packets bytes)
        ∧ Rising 0 bytes.length cursors)
    ∧ ∀ (body : List UInt8) (cursor : Nat), ∃ cursors found,
        videoEntry? body body.length cursor = .ok found
        ∧ EntrySearch body cursor cursors found ∧ Rising cursor body.length cursors := by
  refine ⟨fun d chunks => ?_, fun payload => ?_, fun segment => ?_, fun bytes => ?_,
    fun body cursor => ?_⟩
  · obtain ⟨e, hpushed⟩ :=
      Demuxer.exists_foldlM (fun chunk _ d => Demuxer.exists_push d chunk) d
    obtain ⟨units, hunits⟩ := e.exists_finish
    exact ⟨e, units, hpushed, hunits⟩
  · exact ⟨exists_sectionBody? payload, exists_mapStream? payload, exists_videoStream? payload,
      exists_read payload⟩
  · obtain ⟨d, hpushed⟩ := Demuxer.exists_push {} segment
    obtain ⟨units, hunits⟩ := d.exists_finish
    refine ⟨d, hpushed, ?_⟩
    rw [demux_of_push hpushed, hunits]
    cases d.videoStream with
    | none => exact Or.inl ⟨rfl, rfl⟩
    | some stream => exact Or.inr ⟨units, rfl, rfl⟩
  · have hfuel : bytes.length ≤ 0 + bytes.length := by omega
    obtain ⟨cursors, hsearch⟩ := search_packetsWithin hfuel
    exact ⟨cursors, hsearch, hsearch.rising⟩
  · have hfuel : body.length ≤ cursor + body.length := by omega
    obtain ⟨cursors, found, hfound, hsearch⟩ := entrySearch_videoEntry? hfuel
    exact ⟨cursors, found, hfound, hsearch, hsearch.rising⟩

end VideoWall.Transport
