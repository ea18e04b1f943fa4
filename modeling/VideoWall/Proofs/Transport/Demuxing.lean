/-
What is muxed is demuxed: every transport stream that carries some access
units gives just these, in order.

# Why they come out

To the demuxer a stream is the cells of the video alone: noise changes
nothing, and tables tell it nothing new once it knows them
(`push_muxed`). A cell that begins a unit closes the one before, and then
all cells of a unit are collected; so after each delivery the units
before it have come out, and the collected bytes are what wraps the last
one (`foldlM_delivery`). The end of the stream closes that.
-/
import VideoWall.Proofs.Transport.Muxing
import VideoWall.Transport.Demuxer

namespace VideoWall.Transport

open Bitstream

namespace Demuxer

variable {map video : Fin 8192} {told : Told} {d : Demuxer}

-- ======================================================== one by one

/-- Bytes of no packet are passed over. -/
private theorem push_gap (d : Demuxer) {gap : List UInt8} (hgap : syncByte ∉ gap)
    (bytes : List UInt8) :
    d.push (gap ++ bytes) = d.push bytes := by
  unfold push
  rw [packets_gap hgap]

/-- A packet is taken, and then what is behind it. -/
theorem push_framed (d : Demuxer) {packet : List UInt8} (hpacket : Framed packet)
    (bytes : List UInt8) :
    d.push (packet ++ bytes) = (d.takePacket packet).bind fun d => d.push bytes := by
  unfold push
  rw [packets_framed hpacket, List.foldlM_cons]
  rfl

/-- A packet that is read is taken by its payload. -/
theorem takePacket_read {packet : List UInt8} {p : Packet} (hread : Packet.read packet = .ok p) :
    d.takePacket packet = match p.payload with
      | none => .ok d
      | some payload => d.takePayload p payload := by
  unfold takePacket
  rw [hread]
  rfl

/-- What the demuxer has learnt is what the tables have told. -/
structure Knows (map video : Fin 8192) (told : Told) (d : Demuxer) : Prop where
  mapStream : d.mapStream = if told = .nothing then none else some map.val
  videoStream : d.videoStream = if told = .video then some video.val else none

/-- A packet of another stream changes nothing. -/
private theorem takePayload_foreign (hd : d.Knows map video told) {p : Packet} {stream : Fin 8192}
    (hp : p.stream = stream.val) (hstream : stream ≠ 0 ∧ stream ≠ map ∧ stream ≠ video)
    (payload : List UInt8) : d.takePayload p payload = .ok d := by
  have hassociation : p.stream ≠ associationStream := by
    rw [hp]
    exact fun h => hstream.1 (Fin.ext h)
  have hmap : some p.stream ≠ d.mapStream := by
    rw [hd.mapStream, hp]
    split
    · simp
    · simpa using fun h => hstream.2.1 (Fin.ext h)
  have hvideo : some p.stream ≠ d.videoStream := by
    rw [hd.videoStream, hp]
    split
    · simpa using fun h => hstream.2.2 (Fin.ext h)
    · simp
  unfold takePayload
  rw [if_neg hassociation, if_neg hmap, if_neg hvideo]
  rfl

/-- Noise changes nothing. -/
private theorem push_noise (hd : d.Knows map video told) {piece : List UInt8}
    (hpiece : Noise map video piece) (bytes : List UInt8) :
    d.push (piece ++ bytes) = d.push bytes := by
  cases hpiece with
  | gap _ hgap => exact push_gap d hgap bytes
  | silent spare unitStart stream control rest hsilent hrest =>
      rw [push_framed d (framed_header spare unitStart stream control hrest),
        takePacket_read (read_silent spare unitStart stream hsilent hrest)]
      rfl
  | foreign spare unitStart stream control rest hstream hrest =>
      have htaken : d.takePacket (headerBytes spare unitStart stream control ++ rest) = .ok d := by
        rw [takePacket_read (read_header spare unitStart stream control hrest)]
        split
        · rfl
        · exact takePayload_foreign hd rfl hstream _
      rw [push_framed d (framed_header spare unitStart stream control hrest), htaken]
      rfl

/-- An association table tells of the stream of the map table. -/
private theorem takePacket_association {payload packet : List UInt8}
    (hpayload : NamesMap map payload) (hpacket : Carrier true 0 payload packet) :
    d.takePacket packet = .ok { d with mapStream := some map.val } := by
  rw [takePacket_read (hpacket.read hpayload.ne_nil)]
  show d.takePayload ⟨true, (0 : Fin 8192).val, some payload⟩ payload = _
  unfold takePayload
  rw [if_pos rfl, if_pos rfl, hpayload.mapStream? hpacket.length_le]
  rfl

/-- A map table tells of the video, once its stream is known. -/
private theorem takePacket_mapTable (hmap : map ≠ 0) (hd : d.mapStream = some map.val)
    {payload packet : List UInt8} (hpayload : NamesVideo video payload)
    (hpacket : Carrier true map payload packet) :
    d.takePacket packet = .ok { d with videoStream := some video.val } := by
  have hassociation : ¬ map.val = associationStream := fun h => hmap (Fin.ext h)
  rw [takePacket_read (hpacket.read hpayload.ne_nil)]
  show d.takePayload ⟨true, map.val, some payload⟩ payload = _
  unfold takePayload
  rw [if_neg hassociation, if_pos hd.symm, if_pos rfl, hpayload.videoStream? hpacket.length_le]
  rfl

/-- What a cell does: it may close the unit that is being collected, and
its chunk is collected. -/
def takeCell (d : Demuxer) (c : Cell) : Checked Demuxer := do
  let d ← if c.unitStart then d.flush else pure d
  pure { d with pending := d.pending ++ c.chunk }

/-- A packet that carries a cell has the cell taken. -/
private theorem takePacket_cell (hmap : map ≠ video) (hvideo : video ≠ 0)
    (hd : d.Knows map video .video) {unitStart : Bool} {chunk packet : List UInt8}
    (hchunk : chunk ≠ []) (hpacket : Carrier unitStart video chunk packet) :
    d.takePacket packet = d.takeCell ⟨unitStart, chunk⟩ := by
  have hassociation : ¬ video.val = associationStream := fun h => hvideo (Fin.ext h)
  have hnomap : ¬ some video.val = d.mapStream := by
    rw [hd.mapStream]
    simpa using fun h => hmap (Fin.ext h.symm)
  have hhere : some video.val = d.videoStream := by
    rw [hd.videoStream]
    rfl
  rw [takePacket_read (hpacket.read hchunk)]
  show d.takePayload ⟨unitStart, video.val, some chunk⟩ chunk = _
  unfold takePayload
  rw [if_neg hassociation, if_neg hnomap, if_pos hhere]
  rfl

-- ======================================================= whole streams

/-- Closing a unit leaves nothing collected, and what was learnt. -/
theorem flush_eq_ok {e : Demuxer} (h : d.flush = .ok e) :
    e.mapStream = d.mapStream ∧ e.videoStream = d.videoStream ∧ e.pending = [] := by
  unfold flush at h
  split at h
  case isTrue hempty =>
    cases h
    exact ⟨rfl, rfl, List.isEmpty_iff.1 hempty⟩
  case isFalse =>
    cases hread : AccessUnit.read d.pending with
    | error fault =>
        rw [hread] at h
        cases h
    | ok outcome =>
        rw [hread] at h
        cases outcome with
        | error cause =>
            cases h
            exact ⟨rfl, rfl, rfl⟩
        | ok unit =>
            have hunit : (if unit.data.isEmpty then pure { d with pending := [] }
              else pure { d with pending := [], units := d.units ++ [unit] } : Checked Demuxer)
                = .ok e := h
            split at hunit
            · cases hunit
              exact ⟨rfl, rfl, rfl⟩
            · cases hunit
              exact ⟨rfl, rfl, rfl⟩

/-- What was learnt stays so from cell to cell. -/
private theorem Knows.takeCell {c : Cell} {e : Demuxer} (hd : d.Knows map video told)
    (h : d.takeCell c = .ok e) : e.Knows map video told := by
  obtain ⟨unitStart, chunk⟩ := c
  cases unitStart with
  | false =>
      cases h
      exact ⟨hd.mapStream, hd.videoStream⟩
  | true =>
      cases hflush : d.flush with
      | error fault =>
          have herror : (d.flush.bind fun d => .ok { d with pending := d.pending ++ chunk })
            = .ok e := h
          rw [hflush] at herror
          cases herror
      | ok closed =>
          have hok : (d.flush.bind fun d => .ok { d with pending := d.pending ++ chunk })
            = .ok e := h
          rw [hflush] at hok
          cases hok
          obtain ⟨hmapStream, hvideoStream, -⟩ := flush_eq_ok hflush
          exact ⟨hmapStream.trans hd.mapStream, hvideoStream.trans hd.videoStream⟩

/-- Who has been told of the video knows both streams. -/
theorem Knows.eq_self (hd : d.Knows map video .video) :
    { d with mapStream := some map.val, videoStream := some video.val } = d := by
  have hmapStream : some map.val = d.mapStream := hd.mapStream.symm
  have hvideoStream : some video.val = d.videoStream := hd.videoStream.symm
  rw [hmapStream, hvideoStream]

/-- To the demuxer a stream is its cells. -/
private theorem push_muxed (hmap : map ≠ 0) (hvideo : video ≠ 0) (hdistinct : map ≠ video)
    {cells : List Cell} {bytes : List UInt8} (h : Muxed map video told cells bytes)
    (hd : d.Knows map video told) :
    d.push bytes = cells.foldlM Demuxer.takeCell
      { d with mapStream := some map.val, videoStream := some video.val } := by
  -- along the stream; what the demuxer knows is what it has been told so far
  induction h generalizing d with
  | done =>
      rw [hd.eq_self]
      rfl
  | noise hpiece hbytes ih =>
      rw [push_noise hd hpiece]
      exact ih hd
  | @association told cells payload packet bytes hpayload hpacket hbytes ih =>
      have hnext : Knows map video told.andMap { d with mapStream := some map.val } := by
        cases told with
        | nothing => exact ⟨rfl, hd.videoStream⟩
        | map => exact ⟨rfl, hd.videoStream⟩
        | video => exact ⟨rfl, hd.videoStream⟩
      rw [push_framed d hpacket.framed, takePacket_association hpayload hpacket]
      exact ih hnext
  | mapTable htold hpayload hpacket hbytes ih =>
      have hmapStream : d.mapStream = some map.val := hd.mapStream.trans (if_neg htold)
      have hnext : Knows map video .video { d with videoStream := some video.val } :=
        ⟨hmapStream, rfl⟩
      rw [push_framed d hpacket.framed, takePacket_mapTable hmap hmapStream hpayload hpacket]
      exact ih hnext
  | @cell unitStart cells chunk packet bytes hchunk hpacket hbytes ih =>
      rw [push_framed d hpacket.framed, takePacket_cell hdistinct hvideo hd hchunk hpacket,
        hd.eq_self, List.foldlM_cons]
      cases hcell : d.takeCell ⟨unitStart, chunk⟩ with
      | error fault => rfl
      | ok e =>
          have hnext := hd.takeCell hcell
          have hrest := ih hnext
          rw [hnext.eq_self] at hrest
          exact hrest

-- ============================================================ deliveries

/-- Cells in which no unit begins are collected. -/
private theorem foldlM_continued (d : Demuxer) (chunks : List (List UInt8)) :
    (chunks.map (Cell.mk false)).foldlM takeCell d
      = .ok { d with pending := d.pending ++ chunks.flatten } := by
  induction chunks generalizing d with
  | nil => simp [pure, Except.pure]
  | cons chunk rest ih =>
      rw [List.map_cons, List.foldlM_cons, List.flatten_cons, ← List.append_assoc]
      exact ih { d with pending := d.pending ++ chunk }

/-- The units before the one that is being collected have come out, and
closing that one gives it too. -/
structure Holds (video : Fin 8192) (units : List AccessUnit) (d : Demuxer) : Prop where
  videoStream : d.videoStream = some video.val
  closes : ∃ e, d.flush = .ok e ∧ e.units = units

/-- Collected bytes that wrap a unit with data are closed to that unit. -/
private theorem flush_wrapped {unit : AccessUnit} (hwraps : Wraps unit d.pending)
    (hfilled : unit.data ≠ []) :
    d.flush = .ok { d with pending := [], units := d.units ++ [unit] } := by
  have hsome : ¬ d.pending.isEmpty = true := by
    rw [List.isEmpty_iff]
    exact hwraps.ne_nil
  have hdata : ¬ unit.data.isEmpty = true := by
    rw [List.isEmpty_iff]
    exact hfilled
  unfold flush
  rw [if_neg hsome, hwraps.read]
  exact if_neg hdata

/-- One more delivery gives one more unit. -/
private theorem foldlM_delivery {units : List AccessUnit} (hd : d.Holds video units)
    (delivery : Delivery) :
    ∃ e, delivery.cells.foldlM takeCell d = .ok e
      ∧ e.Holds video (units ++ [delivery.unit]) := by
  obtain ⟨closed, hflush, hunits⟩ := hd.closes
  obtain ⟨-, hvideoStream, hpending⟩ := flush_eq_ok hflush
  obtain ⟨unit, chunks, hfilled, hwraps⟩ := delivery
  cases chunks with
  | nil => exact absurd rfl hwraps.ne_nil
  | cons first rest =>
      have hbegins : d.takeCell ⟨true, first⟩ = .ok { closed with pending := first } := by
        show (d.flush.bind fun d => .ok { d with pending := d.pending ++ first }) = _
        rw [hflush]
        show Except.ok { closed with pending := closed.pending ++ first } = _
        rw [hpending, List.nil_append]
      have hgoes := foldlM_continued { closed with pending := first } rest
      refine ⟨{ closed with pending := first ++ rest.flatten }, ?_, ?_, ?_⟩
      · show (⟨true, first⟩ :: rest.map (Cell.mk false)).foldlM takeCell d = _
        rw [List.foldlM_cons, hbegins]
        exact hgoes
      · exact hvideoStream.trans hd.videoStream
      · refine ⟨_, flush_wrapped hwraps hfilled, ?_⟩
        show closed.units ++ [unit] = units ++ [unit]
        rw [hunits]

/-- Deliveries are taken as their units. -/
private theorem foldlM_deliveries {units : List AccessUnit} (hd : d.Holds video units)
    (deliveries : List Delivery) :
    ∃ e, (deliveries.flatMap Delivery.cells).foldlM takeCell d = .ok e
      ∧ e.Holds video (units ++ deliveries.map Delivery.unit) := by
  induction deliveries generalizing d units with
  | nil => exact ⟨d, rfl, by simpa using hd⟩
  | cons delivery rest ih =>
      obtain ⟨e, hfirst, he⟩ := foldlM_delivery hd delivery
      obtain ⟨e', hrest, he'⟩ := ih he
      refine ⟨e', ?_, ?_⟩
      · rw [List.flatMap_cons, List.foldlM_append, hfirst]
        exact hrest
      · simpa using he'

end Demuxer

/-- Whatever units a stream carries, however they are wrapped, cut, packed
and interleaved, demuxing gives just these, in order. -/
theorem demux_muxes {map video : Fin 8192} (hmap : map ≠ 0) (hvideo : video ≠ 0)
    (hdistinct : map ≠ video) {units : List AccessUnit} {bytes : List UInt8}
    (h : Muxes map video units bytes) : demux bytes = .ok units := by
  obtain ⟨deliveries, rfl, hmuxed⟩ := h
  have hstart : Demuxer.Knows map video .nothing {} := ⟨rfl, rfl⟩
  have hholds : Demuxer.Holds video []
      { mapStream := some map.val, videoStream := some video.val } :=
    ⟨rfl, _, rfl, rfl⟩
  -- all units but the last are out when the next one begins; the last one comes with
  -- the flush
  obtain ⟨d, hcells, hd⟩ := Demuxer.foldlM_deliveries hholds deliveries
  have hpush : ({} : Demuxer).push bytes = .ok d :=
    (Demuxer.push_muxed hmap hvideo hdistinct hmuxed hstart).trans hcells
  obtain ⟨e, hflush, hunits⟩ := hd.closes
  have hfinish : d.finish = .ok (deliveries.map Delivery.unit) := by
    unfold Demuxer.finish
    rw [hflush]
    exact congrArg Except.ok hunits
  have hthere : ¬ d.videoStream.isNone = true := by
    rw [hd.videoStream]
    simp
  unfold demux
  rw [hpush]
  show (if d.videoStream.isNone = true then .error .noVideo
    else d.finish.mapError .damaged : Except SegmentError (List AccessUnit)) = _
  rw [if_neg hthere, hfinish]
  rfl

/-- A unit with a time stamp that takes two packets, and a short one
without. -/
def twoUnits : List AccessUnit :=
  [⟨some 90000, List.replicate 200 0x65⟩, ⟨none, [0, 0, 0, 1, 0x41]⟩]

theorem demux_muxes_two_units :
    Muxes 256 257 twoUnits ([0xFF, 0x00] ++ mux 256 257 twoUnits)
      ∧ demux ([0xFF, 0x00] ++ mux 256 257 twoUnits) = .ok twoUnits := by
  have hunits : ∀ u ∈ twoUnits, u.data ≠ [] ∧ ∀ ticks, u.pts = some ticks →
      ticks < 8589934592 := by
    simp [twoUnits]
  obtain ⟨deliveries, hmap, hmuxed⟩ := muxes_mux 256 257 hunits
  have hmuxes : Muxes 256 257 twoUnits ([0xFF, 0x00] ++ mux 256 257 twoUnits) :=
    ⟨deliveries, hmap, .noise (.gap [0xFF, 0x00] (by decide)) hmuxed⟩
  exact ⟨hmuxes, demux_muxes (by decide) (by decide) (by decide) hmuxes⟩

end VideoWall.Transport
