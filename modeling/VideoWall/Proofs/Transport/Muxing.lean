/-
How access units are muxed into a transport stream.

# What a stream may look like

A unit is wrapped, and what wraps it is cut into chunks, none of them
empty (`Delivery`). Each chunk goes into a packet of the video, and only
the packet of the first chunk says that a unit begins (`Cell`). The
packets of the video keep their order, and in between may stand anything
else that is no part of it (`Noise`): packets of other streams, packets
without a payload, and bytes of no packet at all. The tables come first,
the association table before the map table, and may come again at any
time (`Muxed`).

# That there is one

A plain muxer (`mux`) writes the tables once, puts the stamp of a unit, if
it has one, into the shortest header, fills every packet but the last of a
unit, and leaves no room for noise. It shows that every list of units is
carried by some stream (`muxes_mux`).
-/
import VideoWall.Proofs.Transport.Packets
import VideoWall.Proofs.Transport.Sections
import VideoWall.Proofs.Transport.Units

namespace VideoWall.Transport

open Bitstream

-- ============================================================= streams

/-- A chunk in a packet of the video, and whether a unit begins there. -/
structure Cell where
  unitStart : Bool
  chunk : List UInt8

/-- The cells of the chunks of a unit: it begins in the first one. -/
def cellsOf : List (List UInt8) → List Cell
  | [] => []
  | first :: rest => ⟨true, first⟩ :: rest.map (Cell.mk false)

/-- A unit with data, wrapped and cut. -/
structure Delivery where
  unit : AccessUnit
  chunks : List (List UInt8)
  filled : unit.data ≠ []
  wraps : Wraps unit chunks.flatten

/-- The cells of a unit. -/
def Delivery.cells (d : Delivery) : List Cell := cellsOf d.chunks

/-- What may stand between packets of tables and video. -/
inductive Noise (map video : Fin 8192) : List UInt8 → Prop where
  | gap (bytes : List UInt8) (hgap : syncByte ∉ bytes) : Noise map video bytes
  | silent (spare : Spare) (unitStart : Bool) (stream : Fin 8192) (control : Fin 4)
      (rest : List UInt8)
      (hsilent : control.val % 2 = 0 ∨ (2 ≤ control.val ∧ 183 ≤ (rest.headD 0).toNat))
      (hrest : rest.length = 184) :
      Noise map video (headerBytes spare unitStart stream control ++ rest)
  | foreign (spare : Spare) (unitStart : Bool) (stream : Fin 8192) (control : Fin 4)
      (rest : List UInt8) (hstream : stream ≠ 0 ∧ stream ≠ map ∧ stream ≠ video)
      (hrest : rest.length = 184) :
      Noise map video (headerBytes spare unitStart stream control ++ rest)

/-- Which streams the tables have told of so far. -/
inductive Told where
  | nothing
  | map
  | video
  deriving DecidableEq

/-- An association table tells of the stream of the map table. -/
def Told.andMap : Told → Told
  | .nothing => .map
  | told => told

/-- The rest of a stream that carries cells, when the tables before it have
told so much. -/
inductive Muxed (map video : Fin 8192) : Told → List Cell → List UInt8 → Prop where
  | done : Muxed map video .video [] []
  | noise {told : Told} {cells : List Cell} {piece bytes : List UInt8}
      (hpiece : Noise map video piece) (hbytes : Muxed map video told cells bytes) :
      Muxed map video told cells (piece ++ bytes)
  | association {told : Told} {cells : List Cell} {payload packet bytes : List UInt8}
      (hpayload : NamesMap map payload) (hpacket : Carrier true 0 payload packet)
      (hbytes : Muxed map video told.andMap cells bytes) :
      Muxed map video told cells (packet ++ bytes)
  | mapTable {told : Told} {cells : List Cell} {payload packet bytes : List UInt8}
      (htold : told ≠ .nothing) (hpayload : NamesVideo video payload)
      (hpacket : Carrier true map payload packet) (hbytes : Muxed map video .video cells bytes) :
      Muxed map video told cells (packet ++ bytes)
  | cell {unitStart : Bool} {cells : List Cell} {chunk packet bytes : List UInt8}
      (hchunk : chunk ≠ []) (hpacket : Carrier unitStart video chunk packet)
      (hbytes : Muxed map video .video cells bytes) :
      Muxed map video .video (⟨unitStart, chunk⟩ :: cells) (packet ++ bytes)

/-- A stream that carries some access units. -/
def Muxes (map video : Fin 8192) (units : List AccessUnit) (bytes : List UInt8) : Prop :=
  ∃ deliveries : List Delivery, deliveries.map Delivery.unit = units
    ∧ Muxed map video .nothing (deliveries.flatMap Delivery.cells) bytes

-- ========================================================= a plain muxer

/-- A packet with a payload, filled up with an adaptation field. -/
def packetBytes (unitStart : Bool) (stream : Fin 8192) (payload : List UInt8) : List UInt8 :=
  if payload.length = 184 then headerBytes {} unitStart stream 1 ++ payload
  else
    headerBytes {} unitStart stream 3
      ++ UInt8.ofNat (183 - payload.length)
        :: (List.replicate (183 - payload.length) 0xFF ++ payload)

/-- A written packet carries its payload. -/
theorem carrier_packetBytes {payload : List UInt8} (hlength : payload.length ≤ 184)
    (unitStart : Bool) (stream : Fin 8192) :
    Carrier unitStart stream payload (packetBytes unitStart stream payload) := by
  unfold packetBytes
  split
  case isTrue hfull => exact .plain {} hfull
  case isFalse hshort =>
    have hfield : (List.replicate (183 - payload.length) (0xFF : UInt8)).length
        = 183 - payload.length := List.length_replicate
    have hroom : (List.replicate (183 - payload.length) (0xFF : UInt8)).length + payload.length
        = 183 := by omega
    have hstuffed : Carrier unitStart stream payload _ :=
      .stuffed {} (List.replicate (183 - payload.length) 0xFF) hroom
    rw [hfield] at hstuffed
    exact hstuffed

/-- A payload that begins with a table. -/
def tablePayload (table : UInt8) (body : List UInt8) : List UInt8 :=
  0 :: sectionBytes table 11 body [0, 0, 0, 0]

/-- A written table brings its body. -/
theorem brings_tablePayload (table : UInt8) (body : List UInt8) :
    Brings table body (tablePayload table body) := by
  have hbrings : Brings table body
      (UInt8.ofNat 0 :: ([] ++ (sectionBytes table 11 body [0, 0, 0, 0] ++ []))) :=
    .intro [] 11 [0, 0, 0, 0] [] rfl
  rw [List.append_nil] at hbrings
  exact hbrings

/-- An association table of one program. -/
def associationPayload (map : Fin 8192) : List UInt8 :=
  tablePayload associationTable
    ([0, 1, 0xC1, 0, 0]
      ++ [{ program := ⟨1, by decide⟩, stream := map }].flatMap ProgramEntry.bytes)

/-- A written association names its map. -/
private theorem namesMap_associationPayload (map : Fin 8192) :
    NamesMap map (associationPayload map) :=
  .intro [0, 1, 0xC1, 0, 0] [{ program := ⟨1, by decide⟩, stream := map }] rfl rfl
    (brings_tablePayload associationTable _)

/-- A map table of one stream. -/
def mapPayload (video : Fin 8192) : List UInt8 :=
  tablePayload mapTable
    ([0, 1, 0xC1, 0, 0, 0xFF, 0xFF] ++ (word12Bytes 15 0
      ++ ([] ++ [{ type := videoType, stream := video }].flatMap StreamEntry.bytes)))

/-- A written map names its video. -/
private theorem namesVideo_mapPayload (video : Fin 8192) : NamesVideo video (mapPayload video) :=
  .intro [0, 1, 0xC1, 0, 0, 0xFF, 0xFF] 15 [] [{ type := videoType, stream := video }] rfl rfl
    (brings_tablePayload mapTable _)

/-- Wraps a unit with the shortest header. -/
def wrap (u : AccessUnit) : List UInt8 :=
  match u.pts with
  | none => frontBytes 0xE0 0 0 0x80 0 0 ++ u.data
  | some ticks =>
      frontBytes 0xE0 0 0 0x80 0x80 5
        ++ (Timestamp.bytes { ticks := Fin.ofNat 8589934592 ticks } ++ u.data)

/-- A unit is wrapped with its time stamp. -/
private theorem wraps_wrap {u : AccessUnit}
    (hpts : ∀ ticks, u.pts = some ticks → ticks < 8589934592) : Wraps u (wrap u) := by
  obtain ⟨pts, data⟩ := u
  cases pts with
  | none => exact .untimed 0xE0 0 0 0x80 0 [] data (Or.inl (by decide)) (by decide)
  | some ticks =>
      have hticks : (Fin.ofNat 8589934592 ticks).val = ticks := Nat.mod_eq_of_lt (hpts ticks rfl)
      have hwraps := Wraps.timed 0xE0 0 0 0x80 0x80 { ticks := Fin.ofNat 8589934592 ticks } [] data
        (by decide) (by decide)
      rw [hticks] at hwraps
      exact hwraps

/-- Cuts bytes into as many as fit into a packet. -/
def cut (bytes : List UInt8) : List (List UInt8) :=
  if bytes = [] then [] else bytes.take 184 :: cut (bytes.drop 184)
termination_by bytes.length
decreasing_by
  have hpos : 0 < bytes.length := List.length_pos_iff.2 (by assumption)
  rw [List.length_drop]
  omega

/-- What is cut is put together again. -/
private theorem flatten_cut (bytes : List UInt8) : (cut bytes).flatten = bytes := by
  induction bytes using cut.induct with
  | case1 =>
      rw [cut]
      rfl
  | case2 bytes hne ih => rw [cut, if_neg hne, List.flatten_cons, ih, List.take_append_drop]

/-- Every piece that is cut fits a packet. -/
private theorem cut_fits (bytes : List UInt8) :
    ∀ chunk ∈ cut bytes, chunk ≠ [] ∧ chunk.length ≤ 184 := by
  induction bytes using cut.induct with
  | case1 =>
      rw [cut]
      intro chunk hchunk
      cases hchunk
  | case2 bytes hne ih =>
      rw [cut, if_neg hne]
      intro chunk hchunk
      rcases List.mem_cons.1 hchunk with rfl | hrest
      · refine ⟨by simpa using hne, ?_⟩
        rw [List.length_take]
        omega
      · exact ih chunk hrest

/-- The cells of a unit, wrapped and cut. -/
def unitCells (u : AccessUnit) : List Cell := cellsOf (cut (wrap u))

/-- Writes units as a transport stream. -/
def mux (map video : Fin 8192) (units : List AccessUnit) : List UInt8 :=
  packetBytes true 0 (associationPayload map)
    ++ (packetBytes true map (mapPayload video)
      ++ (units.flatMap unitCells).flatMap fun c => packetBytes c.unitStart video c.chunk)

theorem mem_cellsOf {chunks : List (List UInt8)} {c : Cell} (h : c ∈ cellsOf chunks) :
    c.chunk ∈ chunks := by
  cases chunks with
  | nil => cases h
  | cons first rest =>
      rcases List.mem_cons.1 h with rfl | hrest
      · exact List.mem_cons_self
      · obtain ⟨chunk, hchunk, rfl⟩ := List.mem_map.1 hrest
        exact List.mem_cons_of_mem first hchunk

/-- Cells that fit are muxed packet by packet. -/
private theorem muxed_cells (map video : Fin 8192) {cells : List Cell}
    (hfits : ∀ c ∈ cells, c.chunk ≠ [] ∧ c.chunk.length ≤ 184) :
    Muxed map video .video cells
      (cells.flatMap fun c => packetBytes c.unitStart video c.chunk) := by
  induction cells with
  | nil => exact .done
  | cons c rest ih =>
      obtain ⟨hchunk, hlength⟩ := hfits c List.mem_cons_self
      rw [List.flatMap_cons]
      exact .cell hchunk (carrier_packetBytes hlength c.unitStart video)
        (ih fun c' hc' => hfits c' (List.mem_cons_of_mem c hc'))

/-- Units that are not empty can be delivered. -/
theorem exists_deliveries {units : List AccessUnit}
    (hunits : ∀ u ∈ units, u.data ≠ [] ∧ ∀ ticks, u.pts = some ticks → ticks < 8589934592) :
    ∃ deliveries : List Delivery, deliveries.map Delivery.unit = units
      ∧ deliveries.flatMap Delivery.cells = units.flatMap unitCells := by
  induction units with
  | nil => exact ⟨[], rfl, rfl⟩
  | cons u rest ih =>
      obtain ⟨hfilled, hpts⟩ := hunits u List.mem_cons_self
      obtain ⟨deliveries, hmap, hcells⟩ := ih fun u' hu' => hunits u' (List.mem_cons_of_mem u hu')
      have hwraps : Wraps u (cut (wrap u)).flatten := by
        rw [flatten_cut]
        exact wraps_wrap hpts
      refine ⟨⟨u, cut (wrap u), hfilled, hwraps⟩ :: deliveries, ?_, ?_⟩
      · rw [List.map_cons, hmap]
      · rw [List.flatMap_cons, List.flatMap_cons, hcells]
        rfl

/-- Every list of units with data and time stamps of 33 bits is carried by
some stream. -/
theorem muxes_mux (map video : Fin 8192) {units : List AccessUnit}
    (hunits : ∀ u ∈ units, u.data ≠ [] ∧ ∀ ticks, u.pts = some ticks → ticks < 8589934592) :
    Muxes map video units (mux map video units) := by
  obtain ⟨deliveries, hdelivered, hcells⟩ := exists_deliveries hunits
  have hfits : ∀ c ∈ units.flatMap unitCells, c.chunk ≠ [] ∧ c.chunk.length ≤ 184 := by
    intro c hc
    obtain ⟨u, -, hcell⟩ := List.mem_flatMap.1 hc
    exact cut_fits (wrap u) c.chunk (mem_cellsOf hcell)
  refine ⟨deliveries, hdelivered, ?_⟩
  rw [hcells]
  have hassociation : (associationPayload map).length ≤ 184 := by
    show 17 ≤ 184
    decide
  have hmap : (mapPayload video).length ≤ 184 := by
    show 22 ≤ 184
    decide
  exact .association (namesMap_associationPayload map) (carrier_packetBytes hassociation true 0)
    (.mapTable (by decide) (namesVideo_mapPayload video) (carrier_packetBytes hmap true map)
      (muxed_cells map video hfits))

end VideoWall.Transport
