/-
What the units of a demuxed stream are made of, whatever the bytes.

# Bundles

To the collecting of units a packet is a fragment of the video, a map
table that names the stream of the video, or nothing. The fragments and
map tables of a stream are its cues (`Demuxer.cues`). Cut in front of every
fragment that begins a unit, the cues make bundles (`bundles`).

# The law

Demuxing goes through whatever the bytes are. The units are what can be
read off the payloads of the bundles, one bundle after the other, and
nothing else; and a bundle is one packet of the elementary stream in one
stream (`Whole`), unless

- it is what comes before the first fragment that begins a unit
  (`Headless`), or
- a map table has named another stream within it (`Retuned`).

That is `units_of_bundles`. The demuxer guards against neither: bytes from
before the first unit may come out as a unit, and a unit may go on with
bytes of another stream (`units_of_strays`).

# Why it holds

What is collected after some cues can be told from the cues alone
(`Gathers`): the bundles but the last one have been closed to units, and
the payload of the last one is pending. A fragment that begins a unit
closes the last bundle and opens another (`bundles_begins`); any other cue
goes to the last one (`bundles_goesOn`). And every fragment is of the
stream that the last map table before it has named (`OnAir`).
-/
import Mathlib.Data.List.SplitBy
import VideoWall.Proofs.Transport.Demuxing

namespace VideoWall.Transport

open Bitstream

-- ============================================================== reading

/-- Five bytes are always read as a time stamp. -/
theorem exists_timestamp {bytes : List UInt8} (h : 5 ≤ bytes.length) :
    ∃ ticks, readTimestamp bytes = .ok ticks := by
  unfold readTimestamp
  rw [byteAt_of_lt (show 0 < _ by omega), byteAt_of_lt (show 1 < _ by omega),
    byteAt_of_lt (show 2 < _ by omega), byteAt_of_lt (show 3 < _ by omega),
    byteAt_of_lt (show 4 < _ by omega)]
  exact ⟨_, rfl⟩

/-- Whether collected bytes are a packet of the elementary stream can
always be told. -/
theorem exists_read (bytes : List UInt8) : ∃ outcome, AccessUnit.read bytes = .ok outcome := by
  unfold AccessUnit.read
  by_cases hfront : bytes.length < 9 ∨ bytes.take 3 ≠ [0, 0, 1]
  · exact ⟨_, if_pos hfront⟩
  · rw [if_neg hfront, byteAt_of_lt (show 7 < _ by omega), byteAt_of_lt (show 8 < _ by omega)]
    simp only [bind, Except.bind]
    split
    · exact ⟨_, rfl⟩
    · rename_i hheader
      rw [bytesFrom_of_le (by omega)]
      split
      · rename_i hstamp
        have hbetween : between bytes 9 14 = .ok ((bytes.take 14).drop 9) := if_pos (by omega)
        have hfive : 5 ≤ ((bytes.take 14).drop 9).length := by
          simp only [List.length_drop, List.length_take]
          omega
        obtain ⟨ticks, hticks⟩ := exists_timestamp hfive
        rw [hbetween]
        dsimp only
        rw [hticks]
        exact ⟨_, rfl⟩
      · exact ⟨_, rfl⟩

/-- Whether a payload brings a table can always be told. -/
theorem exists_sectionBody? (payload : List UInt8) (table : UInt8) :
    ∃ body, sectionBody? payload table = .ok body := by
  unfold sectionBody?
  split
  · exact ⟨_, rfl⟩
  · split
    · exact ⟨_, rfl⟩
    · dsimp only
      split
      · exact ⟨_, rfl⟩
      · rename_i found rest heq
        split
        · exact ⟨_, rfl⟩
        · rename_i hthere
          rw [byteAt_of_lt (show 1 < _ by omega), byteAt_of_lt (show 2 < _ by omega)]
          simp only [bind, Except.bind]
          split
          · exact ⟨_, rfl⟩
          · split
            · exact ⟨_, rfl⟩
            · exact ⟨_, rfl⟩

/-- Looking for the video entry never fails. -/
theorem exists_videoEntry? (body : List UInt8) (fuel cursor : Nat) :
    ∃ stream, videoEntry? body fuel cursor = .ok stream := by
  induction fuel generalizing cursor with
  | zero => exact ⟨none, rfl⟩
  | succ fuel ih =>
      unfold videoEntry?
      split
      · exact ⟨_, rfl⟩
      · rename_i hroom
        rw [byteAt_of_lt (show cursor < _ by omega), byteAt_of_lt (show cursor + 1 < _ by omega),
          byteAt_of_lt (show cursor + 2 < _ by omega), byteAt_of_lt (show cursor + 3 < _ by omega),
          byteAt_of_lt (show cursor + 4 < _ by omega)]
        simp only [bind, Except.bind]
        split
        · exact ⟨_, rfl⟩
        · exact ih _

theorem exists_mapStream? (payload : List UInt8) : ∃ stream, mapStream? payload = .ok stream := by
  obtain ⟨body, hbody⟩ := exists_sectionBody? payload associationTable
  unfold mapStream?
  rw [hbody]
  cases body with
  | none => exact ⟨none, rfl⟩
  | some body =>
      simp only [bind, Except.bind]
      split
      · exact ⟨_, rfl⟩
      · exact ⟨_, rfl⟩

/-- Looking for the video stream never fails. -/
theorem exists_videoStream? (payload : List UInt8) :
    ∃ stream, videoStream? payload = .ok stream := by
  obtain ⟨body, hbody⟩ := exists_sectionBody? payload mapTable
  unfold videoStream?
  rw [hbody]
  cases body with
  | none => exact ⟨none, rfl⟩
  | some body =>
      simp only [bind, Except.bind]
      split
      · exact exists_videoEntry? body _ _
      · exact ⟨_, rfl⟩

/-- What is found in a stretch of bytes are packets. -/
theorem framed_of_mem_packetsWithin {fuel : Nat} {bytes packet : List UInt8}
    (h : packet ∈ packetsWithin fuel bytes) : Framed packet := by
  induction fuel generalizing bytes with
  | zero => cases h
  | succ fuel ih =>
      cases bytes with
      | nil => cases h
      | cons b rest =>
          unfold packetsWithin at h
          dsimp only at h
          split at h
          · cases h
          · rename_i hlong
            split at h
            · rename_i hsync
              rcases List.mem_cons.1 h with rfl | hlater
              · refine ⟨?_, ?_⟩
                · have hle := List.length_take_le packetLength (b :: rest)
                  omega
                · simp [packetLength, hsync]
              · exact ih hlater
            · exact ih h

/-- A packet can be read. -/
theorem Framed.exists_read {packet : List UInt8} (h : Framed packet) :
    ∃ p, Packet.read packet = .ok p := by
  obtain ⟨hlength, hsync⟩ := h
  unfold packetLength at hlength
  match packet, hlength, hsync with
  | b :: b1 :: b2 :: b3 :: rest, hlength, hsync =>
      obtain rfl : b = syncByte := by simpa using hsync
      exact ⟨_, read_eq b1 b2 b3 (by simpa using hlength)⟩

-- ================================================================= cues

/-- A payload of the video. -/
structure Fragment where
  unitStart : Bool
  stream : Nat
  payload : List UInt8
  deriving DecidableEq, Repr

/-- What a packet is to the collecting of units: a fragment, or a map table
that names the stream of the video. -/
inductive Cue where
  | fragment (f : Fragment)
  | tuned (stream : Nat)
  deriving DecidableEq, Repr

/-- Whether a unit begins here. -/
def Cue.beginsUnit : Cue → Bool
  | .fragment f => f.unitStart
  | .tuned _ => false

/-- What is collected. -/
def Cue.bytes : Cue → List UInt8
  | .fragment f => f.payload
  | .tuned _ => []

/-- Cues, cut in front of every one that begins a unit. -/
def bundles (cues : List Cue) : List (List Cue) := cues.splitBy fun _ c => !c.beginsUnit

/-- The unit that can be read off collected bytes, if it has data. -/
def unitOf? (bytes : List UInt8) : Option AccessUnit :=
  match AccessUnit.read bytes with
  | .ok (.ok unit) => if unit.data.isEmpty then none else some unit
  | _ => none

/-- The unit of a bundle. -/
def bundleUnit? (bundle : List Cue) : Option AccessUnit := unitOf? (bundle.flatMap Cue.bytes)

namespace Demuxer

variable {d e : Demuxer} {cue : Option Cue}

/-- What a packet is to the demuxer, by what it has learnt. -/
def cue? (d : Demuxer) (p : Packet) : Option Cue :=
  p.payload.bind fun payload =>
    if p.stream = associationStream then none
    else if some p.stream = d.mapStream then
      if p.unitStart then (videoStream? payload).toOption.join.map .tuned else none
    else if some p.stream = d.videoStream then some (.fragment ⟨p.unitStart, p.stream, payload⟩)
    else none

/-- The cues in some packets. -/
def cues (d : Demuxer) : List (List UInt8) → List Cue
  | [] => []
  | packet :: rest =>
      match Packet.read packet, d.takePacket packet with
      | .ok p, .ok e => (d.cue? p).toList ++ e.cues rest
      | _, _ => []

-- ============================================================== one cue

/-- What taking a packet does, by its cue. -/
inductive Takes (d : Demuxer) : Option Cue → Demuxer → Prop where
  | passes (mapStream : Option Nat) : d.Takes none { d with mapStream }
  | tunes (stream : Nat) : d.Takes (some (.tuned stream)) { d with videoStream := some stream }
  | begins (f : Fragment) (hvideo : d.videoStream = some f.stream) (hstart : f.unitStart = true) :
      d.Takes (some (.fragment f))
        { d with pending := f.payload, units := d.units ++ (unitOf? d.pending).toList }
  | goesOn (f : Fragment) (hvideo : d.videoStream = some f.stream)
      (hstart : f.unitStart = false) :
      d.Takes (some (.fragment f)) { d with pending := d.pending ++ f.payload }

/-- Closing gives the unit that can be read off what is pending. -/
theorem flush_eq (d : Demuxer) :
    d.flush = .ok { d with pending := [], units := d.units ++ (unitOf? d.pending).toList } := by
  obtain ⟨mapStream, videoStream, pending, units⟩ := d
  unfold flush
  by_cases hempty : pending = []
  · subst hempty
    have hnone : unitOf? [] = none := rfl
    simp [hnone, pure, Except.pure]
  · obtain ⟨outcome, hread⟩ := exists_read pending
    have hfull : ¬ pending.isEmpty = true := by simpa using hempty
    unfold unitOf?
    rw [if_neg hfull, hread]
    cases outcome with
    | error cause => simp [bind, Except.bind, pure, Except.pure]
    | ok unit =>
        simp only [bind, Except.bind]
        split
        · simp [pure, Except.pure]
        · simp [pure, Except.pure]

/-- Every payload can be taken. -/
private theorem takePayload_takes (d : Demuxer) {p : Packet} {payload : List UInt8}
    (hp : p.payload = some payload) :
    ∃ e, d.takePayload p payload = .ok e ∧ d.Takes (d.cue? p) e := by
  unfold takePayload cue?
  rw [hp, Option.bind_some]
  -- by the stream of the packet: table of programs, map, video, or none of them
  by_cases hassociation : p.stream = associationStream
  · rw [if_pos hassociation, if_pos hassociation]
    obtain ⟨stream, hstream⟩ := exists_mapStream? payload
    split
    · rw [hstream]
      cases stream with
      | none => exact ⟨_, rfl, .passes d.mapStream⟩
      | some stream => exact ⟨_, rfl, .passes (some stream)⟩
    · exact ⟨_, rfl, .passes d.mapStream⟩
  · rw [if_neg hassociation, if_neg hassociation]
    by_cases hmap : some p.stream = d.mapStream
    · rw [if_pos hmap, if_pos hmap]
      obtain ⟨stream, hstream⟩ := exists_videoStream? payload
      split
      · rw [hstream]
        cases stream with
        | none => exact ⟨_, rfl, .passes d.mapStream⟩
        | some stream => exact ⟨_, rfl, .tunes stream⟩
      · exact ⟨_, rfl, .passes d.mapStream⟩
    · rw [if_neg hmap, if_neg hmap]
      by_cases hvideo : some p.stream = d.videoStream
      · rw [if_pos hvideo, if_pos hvideo]
        cases hstart : p.unitStart with
        | true =>
            rw [if_pos rfl, flush_eq]
            exact ⟨_, rfl, .begins ⟨true, p.stream, payload⟩ hvideo.symm rfl⟩
        | false => exact ⟨_, rfl, .goesOn ⟨false, p.stream, payload⟩ hvideo.symm rfl⟩
      · rw [if_neg hvideo, if_neg hvideo]
        exact ⟨_, rfl, .passes d.mapStream⟩

/-- Every packet can be taken. -/
theorem takePacket_takes (d : Demuxer) {packet : List UInt8} (hpacket : Framed packet) :
    ∃ p e, Packet.read packet = .ok p ∧ d.takePacket packet = .ok e ∧ d.Takes (d.cue? p) e := by
  obtain ⟨p, hread⟩ := hpacket.exists_read
  rw [takePacket_read hread]
  cases hpayload : p.payload with
  | none =>
      refine ⟨p, d, hread, rfl, ?_⟩
      unfold cue?
      rw [hpayload]
      exact .passes d.mapStream
  | some payload =>
      obtain ⟨e, htaken, htakes⟩ := d.takePayload_takes hpayload
      exact ⟨p, e, hread, htaken, htakes⟩

end Demuxer

-- ============================================================== bundles

variable {before cues bundle : List Cue} {c : Cue}

/-- A fragment that begins a unit begins a bundle. -/
private theorem bundles_begins (hc : c.beginsUnit = true) :
    bundles (before ++ [c]) = bundles before ++ [[c]] := by
  unfold bundles
  rw [List.splitBy_append_cons [] (by simp [hc])]
  rfl

/-- The last bundle and those before it are all. -/
theorem bundles_last (h : before ≠ []) :
    (bundles before).dropLast ++ [(bundles before).getLast?.getD []] = bundles before := by
  have hsome : bundles before ≠ [] := List.splitBy_ne_nil.2 h
  rw [List.getLast?_eq_some_getLast hsome, Option.getD_some, List.dropLast_append_getLast]

/-- Any other cue goes to the last bundle. -/
private theorem bundles_goesOn (hc : c.beginsUnit = false) :
    bundles (before ++ [c])
      = (bundles before).dropLast ++ [(bundles before).getLast?.getD [] ++ [c]] := by
  by_cases hempty : before = []
  · subst hempty
    rfl
  · have hlast := bundles_last hempty
    generalize (bundles before).dropLast = closed at hlast ⊢
    generalize (bundles before).getLast?.getD [] = current at hlast ⊢
    obtain ⟨hflat, hfull, hinner, houter⟩ := List.splitBy_eq_iff.1 hlast.symm
    rw [List.isChain_append] at houter
    have hcurrent : current ≠ [] := by
      rintro rfl
      exact hfull (by simp)
    refine List.splitBy_eq_iff.2 ⟨by simp [hflat], ?_, ?_, ?_⟩
    · simpa [hcurrent] using hfull
    · intro m hm
      rcases List.mem_append.1 hm with hclosed | hopen
      · exact hinner m (List.mem_append_left _ hclosed)
      · obtain rfl := List.mem_singleton.1 hopen
        refine List.isChain_append.2 ⟨hinner current (by simp), List.isChain_singleton _, ?_⟩
        simp [hc]
    · refine List.isChain_append.2 ⟨houter.1, List.isChain_singleton _, ?_⟩
      intro x hx y hy
      obtain ⟨hne, _, hcut⟩ := houter.2.2 x hx current (by simp)
      obtain rfl : current ++ [c] = y := by simpa using hy
      refine ⟨hne, by simp, ?_⟩
      rw [List.head_append_of_ne_nil hcurrent]
      exact hcut

/-- Within a bundle no unit begins but in front. -/
private theorem begins_of_mem_bundles (h : bundle ∈ bundles cues) :
    ∃ first rest, bundle = first :: rest ∧ ∀ c ∈ rest, c.beginsUnit = false := by
  obtain ⟨first, rest, rfl⟩ := List.exists_cons_of_ne_nil (List.ne_nil_of_mem_splitBy h)
  have hchain := List.isChain_of_mem_splitBy h
  have : IsTrans Cue fun _ c => (!c.beginsUnit) = true := ⟨fun _ _ _ _ h => h⟩
  have hpairs := List.isChain_iff_pairwise.1 hchain
  refine ⟨first, rest, rfl, fun c hc => ?_⟩
  simpa using List.rel_of_pairwise_cons hpairs hc

/-- A bundle that does not begin with the beginning of a unit is what comes
first. -/
private theorem prefix_or_begins (h : bundle ∈ bundles cues) :
    bundle <+: cues ∨ ∃ first ∈ bundle.head?, first.beginsUnit = true := by
  have hflat : (bundles cues).flatten = cues := List.flatten_splitBy _ cues
  have houter := List.isChain_getLast_head_splitBy (fun _ (c : Cue) => !c.beginsUnit) cues
  have : IsTrans (List Cue) fun a b => ∃ (ha : a ≠ []) (hb : b ≠ []),
      (fun _ (c : Cue) => !c.beginsUnit) (a.getLast ha) (b.head hb) = false :=
    ⟨fun _ _ _ hab hbc => ⟨hab.1, hbc.2.1, hbc.2.2⟩⟩
  have hpairs := List.isChain_iff_pairwise.1 houter
  change List.Pairwise _ (bundles cues) at hpairs
  cases hbundles : bundles cues with
  | nil =>
      rw [hbundles] at h
      cases h
  | cons opening later =>
      rw [hbundles] at h hflat hpairs
      rcases List.mem_cons.1 h with rfl | hlater
      · exact Or.inl ⟨later.flatten, by simpa using hflat⟩
      · obtain ⟨-, hne, hcut⟩ := List.rel_of_pairwise_cons hpairs hlater
        exact Or.inr ⟨bundle.head hne, List.head_mem_head? hne, by simpa using hcut⟩

-- ============================================================== streams

/-- Fragments are of the stream that was named last. -/
def OnAir (video : Option Nat) : List Cue → Prop
  | [] => True
  | .fragment f :: rest => video = some f.stream ∧ OnAir video rest
  | .tuned stream :: rest => OnAir (some stream) rest

/-- What is on air goes on from where it is. -/
theorem OnAir.suffix {video : Option Nat} {later : List Cue} (h : OnAir video (before ++ later)) :
    ∃ video', OnAir video' later := by
  induction before generalizing video with
  | nil => exact ⟨video, h⟩
  | cons c rest ih =>
      cases c with
      | fragment f => exact ih h.2
      | tuned stream => exact ih h

/-- Fragments are of one stream as long as no other one is named. -/
private theorem OnAir.one_stream {stream : Nat} {later : List Cue}
    (h : OnAir (some stream) (cues ++ later)) :
    (∀ f, .fragment f ∈ cues → f.stream = stream) ∨ ∃ other ≠ stream, .tuned other ∈ cues := by
  induction cues with
  | nil => exact Or.inl (by simp)
  | cons c rest ih =>
      cases c with
      | fragment f =>
          obtain ⟨hvideo, hrest⟩ := h
          rcases ih hrest with hsame | ⟨other, hother, hnamed⟩
          · refine Or.inl fun f' hf' => ?_
            rcases List.mem_cons.1 hf' with heq | hlater
            · cases heq
              exact (Option.some.inj hvideo).symm
            · exact hsame f' hlater
          · exact Or.inr ⟨other, hother, List.mem_cons_of_mem _ hnamed⟩
      | tuned other =>
          by_cases hother : other = stream
          · subst hother
            rcases ih h with hsame | ⟨other', hother', hnamed⟩
            · exact Or.inl fun f hf => hsame f (by simpa using hf)
            · exact Or.inr ⟨other', hother', List.mem_cons_of_mem _ hnamed⟩
          · exact Or.inr ⟨other, hother, List.mem_cons_self⟩

/-- A bundle that is one packet of the elementary stream in one stream: it
begins in the first fragment, and the others go on with it. -/
def Whole (bundle : List Cue) : Prop :=
  ∃ first rest, bundle = .fragment first :: rest ∧ first.unitStart = true
    ∧ ∀ f, .fragment f ∈ rest → f.unitStart = false ∧ f.stream = first.stream

/-- A bundle in which no unit begins. -/
def Headless (bundle : List Cue) : Prop := ∀ c ∈ bundle, c.beginsUnit = false

/-- A bundle within which a map table names another stream than that of its
first fragment. -/
def Retuned (bundle : List Cue) : Prop :=
  ∃ first rest, bundle = .fragment first :: rest ∧ first.unitStart = true
    ∧ ∃ other ≠ first.stream, .tuned other ∈ rest

/-- A bundle is one packet of the elementary stream, unless it is the first
one and no unit begins in it, or the stream is changed within it. -/
private theorem whole_or_stray {video : Option Nat} (hair : OnAir video cues)
    (h : bundle ∈ bundles cues) :
    Whole bundle ∨ (Headless bundle ∧ bundle <+: cues) ∨ Retuned bundle := by
  obtain ⟨first, rest, rfl, hrest⟩ := begins_of_mem_bundles h
  cases hfirst : first.beginsUnit with
  | false =>
      refine Or.inr (Or.inl ⟨?_, ?_⟩)
      · rintro c hc
        rcases List.mem_cons.1 hc with rfl | hlater
        · exact hfirst
        · exact hrest c hlater
      · rcases prefix_or_begins h with hprefix | ⟨c, hc, hbegins⟩
        · exact hprefix
        · obtain rfl : first = c := by simpa using hc
          rw [hfirst] at hbegins
          cases hbegins
  | true =>
      cases first with
      | tuned stream => cases hfirst
      | fragment first =>
          obtain ⟨earlier, later, hbundles⟩ := List.append_of_mem h
          have hcues : cues = earlier.flatten ++ (.fragment first :: (rest ++ later.flatten)) := by
            rw [← List.flatten_splitBy (fun _ c => !c.beginsUnit) cues]
            change (bundles cues).flatten = _
            rw [hbundles]
            simp
          rw [hcues] at hair
          obtain ⟨video', hvideo, hlater⟩ := hair.suffix
          rw [hvideo] at hlater
          rcases hlater.one_stream with hsame | hother
          · exact Or.inl ⟨first, rest, rfl, hfirst, fun f hf => ⟨hrest _ hf, hsame f hf⟩⟩
          · exact Or.inr (Or.inr ⟨first, rest, rfl, hfirst, hother⟩)

-- =========================================================== whole runs

namespace Demuxer

variable {d e : Demuxer} {cue : Option Cue}

/-- What is collected after some cues: the last bundle is pending, and the
others have been closed. -/
structure Gathers (before : List Cue) (d : Demuxer) : Prop where
  pending : d.pending = ((bundles before).getLast?.getD []).flatMap Cue.bytes
  units : d.units = (bundles before).dropLast.filterMap bundleUnit?

private theorem gathers_empty : Gathers [] {} := ⟨rfl, rfl⟩

/-- To close the last bundle gives the units of all of them. -/
theorem Gathers.closed (h : Gathers before d) :
    d.units ++ (unitOf? d.pending).toList = (bundles before).filterMap bundleUnit? := by
  rw [h.units, h.pending]
  by_cases hempty : before = []
  · subst hempty
    rfl
  · have hlast := bundles_last hempty
    generalize (bundles before).dropLast = closed at hlast ⊢
    generalize (bundles before).getLast?.getD [] = current at hlast ⊢
    rw [← hlast, List.filterMap_append]
    change _ ++ (bundleUnit? current).toList = _
    cases hunit : bundleUnit? current with
    | none => simp [hunit]
    | some unit => simp [hunit]

/-- One more packet is one more cue, or none. -/
theorem Gathers.takes (h : Gathers before d) (htakes : d.Takes cue e) :
    Gathers (before ++ cue.toList) e := by
  cases htakes with
  | passes mapStream =>
      rw [Option.toList_none, List.append_nil]
      exact ⟨h.pending, h.units⟩
  | tunes stream =>
      rw [Option.toList_some]
      have hbundles : bundles (before ++ [.tuned stream]) = _ := bundles_goesOn rfl
      constructor
      · rw [hbundles]
        simp [h.pending, Cue.bytes]
      · rw [hbundles]
        simp [h.units]
  | begins f hvideo hstart =>
      rw [Option.toList_some]
      have hbundles : bundles (before ++ [.fragment f]) = _ := bundles_begins hstart
      constructor
      · rw [hbundles]
        simp [Cue.bytes]
      · rw [hbundles, List.dropLast_concat]
        exact h.closed
  | goesOn f hvideo hstart =>
      rw [Option.toList_some]
      have hbundles : bundles (before ++ [.fragment f]) = _ := bundles_goesOn hstart
      constructor
      · rw [hbundles]
        simp [h.pending, Cue.bytes]
      · rw [hbundles]
        simp [h.units]

/-- A cue is of the stream that was named last. -/
private theorem Takes.onAir (htakes : d.Takes cue e) {later : List Cue}
    (h : OnAir e.videoStream later) : OnAir d.videoStream (cue.toList ++ later) := by
  cases htakes with
  | passes mapStream => exact h
  | tunes stream => exact h
  | begins f hvideo hstart => exact ⟨hvideo, h⟩
  | goesOn f hvideo hstart => exact ⟨hvideo, h⟩

/-- Packets can be taken one after the other, and their cues tell what is
collected then. -/
theorem exists_run {packets : List (List UInt8)} (hpackets : ∀ packet ∈ packets, Framed packet)
    (h : Gathers before d) :
    ∃ e, packets.foldlM takePacket d = .ok e ∧ Gathers (before ++ d.cues packets) e
      ∧ OnAir d.videoStream (d.cues packets) := by
  induction packets generalizing d before with
  | nil =>
      refine ⟨d, rfl, ?_, trivial⟩
      unfold cues
      rwa [List.append_nil]
  | cons packet rest ih =>
      obtain ⟨p, next, hread, htaken, htakes⟩ :=
        d.takePacket_takes (hpackets packet List.mem_cons_self)
      obtain ⟨e, hrest, hgathers, hair⟩ :=
        ih (fun other hother => hpackets other (List.mem_cons_of_mem packet hother))
          (h.takes htakes)
      have hcues : d.cues (packet :: rest) = (d.cue? p).toList ++ next.cues rest := by
        rw [cues, hread, htaken]
      rw [hcues, ← List.append_assoc]
      refine ⟨e, ?_, hgathers, htakes.onAir hair⟩
      rw [List.foldlM_cons, htaken]
      exact hrest

/-- To push chunks is to take their packets. -/
private theorem foldlM_push (chunks : List (List UInt8)) (d : Demuxer) :
    chunks.foldlM push d = (chunks.flatMap packets).foldlM takePacket d := by
  induction chunks generalizing d with
  | nil => rfl
  | cons chunk rest ih =>
      rw [List.foldlM_cons, List.flatMap_cons, List.foldlM_append]
      exact congrArg _ (funext ih)

end Demuxer

/-- The cues in some chunks that are pushed one after the other. -/
def cuesOf (chunks : List (List UInt8)) : List Cue :=
  ({} : Demuxer).cues (chunks.flatMap packets)

/-- Whatever chunks are pushed, demuxing goes through, and its units are
those of the bundles of the cues, in order. A bundle is the payload of one
packet of the elementary stream: it begins in the first fragment, and the
other fragments go on with it in the same stream. Except: what comes before
any fragment that begins a unit is a bundle, too, and a map table may have
named another stream within a bundle. -/
theorem units_of_bundles (chunks : List (List UInt8)) :
    ∃ d, chunks.foldlM Demuxer.push {} = .ok d
      ∧ d.finish = .ok ((bundles (cuesOf chunks)).filterMap bundleUnit?)
      ∧ ∀ bundle ∈ bundles (cuesOf chunks),
          Whole bundle ∨ (Headless bundle ∧ bundle <+: cuesOf chunks) ∨ Retuned bundle := by
  -- every packet that is found has its full length, so each one is read
  have hframed : ∀ packet ∈ chunks.flatMap packets, Framed packet := by
    intro packet hpacket
    obtain ⟨chunk, -, hfound⟩ := List.mem_flatMap.1 hpacket
    exact framed_of_mem_packetsWithin hfound
  obtain ⟨d, hrun, hgathers, hair⟩ := Demuxer.exists_run hframed Demuxer.gathers_empty
  refine ⟨d, (Demuxer.foldlM_push chunks {}).trans hrun, ?_,
    fun bundle hbundle => whole_or_stray hair hbundle⟩
  unfold Demuxer.finish
  rw [Demuxer.flush_eq]
  exact congrArg Except.ok hgathers.closed

/-- The tables of a program, a packet of its video in which no unit begins,
and one in which a unit does; then the map table names another stream, and a
packet of that one follows. -/
def straySegment (map video other : Fin 8192) : List UInt8 :=
  mux map video []
    ++ (packetBytes false video (wrap ⟨none, [0x66]⟩)
      ++ (packetBytes true video (wrap ⟨none, [0x65]⟩)
        ++ (packetBytes true map (mapPayload other) ++ packetBytes false other [0x41])))

/-- One unit begins in the video, and two come out: what stood before it,
and the one that began, with the bytes of another stream at its end. -/
theorem units_of_strays :
    (packets (straySegment 256 257 258)).map Packet.read
        = [ .ok ⟨true, 0, some (associationPayload 256)⟩,
            .ok ⟨true, 256, some (mapPayload 257)⟩,
            .ok ⟨false, 257, some (wrap ⟨none, [0x66]⟩)⟩,
            .ok ⟨true, 257, some (wrap ⟨none, [0x65]⟩)⟩,
            .ok ⟨true, 256, some (mapPayload 258)⟩,
            .ok ⟨false, 258, some [0x41]⟩ ]
      ∧ demux (straySegment 256 257 258) = .ok [⟨none, [0x66]⟩, ⟨none, [0x65, 0x41]⟩] := by
  decide +kernel

end VideoWall.Transport
