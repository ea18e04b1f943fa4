/-
The two tables as they are written, and that they are read back.

A payload that brings a table begins with a byte that says how many bytes
to pass over; then comes the section, and behind it may be anything. The
section says how long it is, checksum included (`Brings`). An association
table lists programs with the streams of their map tables, a map table
lists streams with their types and descriptors.
-/
import VideoWall.Proofs.Bitstream.Words
import VideoWall.Transport.Section

namespace VideoWall.Transport

open Bitstream

-- ============================================================= sections

/-- The section of a table: its number, its length, what it says, and its
checksum. -/
def sectionBytes (table : UInt8) (spare : Fin 16) (body checksum : List UInt8) : List UInt8 :=
  table :: word12Bytes spare (body.length + checksum.length) ++ (body ++ checksum)

/-- A payload brings a table that says `body`. -/
inductive Brings (table : UInt8) (body : List UInt8) : List UInt8 → Prop where
  | intro (skipped : List UInt8) (spare : Fin 16) (checksum trailing : List UInt8)
      (hchecksum : checksum.length = 4) :
      Brings table body
        (UInt8.ofNat skipped.length
          :: (skipped ++ (sectionBytes table spare body checksum ++ trailing)))

/-- A payload that brings a table is not empty. -/
theorem Brings.ne_nil {table : UInt8} {body payload : List UInt8}
    (h : Brings table body payload) : payload ≠ [] := by
  obtain ⟨skipped, spare, checksum, trailing, hchecksum⟩ := h
  simp

/-- A body is not longer than its payload. -/
theorem Brings.length_le {table : UInt8} {body payload : List UInt8}
    (h : Brings table body payload) : body.length ≤ payload.length := by
  obtain ⟨skipped, spare, checksum, trailing, hchecksum⟩ := h
  simp only [sectionBytes, List.length_cons, List.length_append]
  omega

/-- The body of a section is read from its table number on, up to the
checksum. -/
theorem Brings.sectionBody? {table : UInt8} {body payload : List UInt8}
    (h : Brings table body payload) (hlength : payload.length ≤ 184) :
    ∃ lengthBytes : List UInt8, lengthBytes.length = 2
      ∧ sectionBody? payload table = .ok (some (table :: (lengthBytes ++ body))) := by
  obtain ⟨skipped, spare, checksum, trailing, hchecksum⟩ := h
  simp only [sectionBytes, word12Bytes, List.length_cons, List.length_append, List.length_nil,
    hchecksum] at hlength
  have hpointer := toNat_ofNat_byte (n := skipped.length) (by omega)
  -- the section and what is behind it, byte by byte
  obtain ⟨hi, lo, hbytes, hvalue⟩ := word12_bytes spare (n := body.length + 4) (by omega)
  have hsection : sectionBytes table spare body checksum ++ trailing
      = table :: hi :: lo :: (body ++ (checksum ++ trailing)) := by
    rw [sectionBytes, hchecksum, hbytes]
    simp
  have hroom : ¬ (skipped ++ (sectionBytes table spare body checksum ++ trailing)).length
      < skipped.length := by
    rw [List.length_append]
    omega
  have hstop : 3 + (body.length + 4) - 4 = (table :: hi :: lo :: body).length := by
    simp only [List.length_cons]
    omega
  have htake : (table :: hi :: lo :: (body ++ (checksum ++ trailing))).take
      (3 + (body.length + 4) - 4) = table :: hi :: lo :: body := by
    have happend : table :: hi :: lo :: (body ++ (checksum ++ trailing))
        = (table :: hi :: lo :: body) ++ (checksum ++ trailing) := rfl
    rw [hstop, happend, List.take_left]
  have hlong : ¬ (table ≠ table
      ∨ (table :: hi :: lo :: (body ++ (checksum ++ trailing))).length < 3) := by
    simp
  have hshort : ¬ 3 + (body.length + 4) < 4 := by omega
  have hthere : ¬ (table :: hi :: lo :: (body ++ (checksum ++ trailing))).length
      < 3 + (body.length + 4) - 4 := by
    simp only [List.length_cons, List.length_append]
    omega
  refine ⟨[hi, lo], rfl, ?_⟩
  unfold Transport.sectionBody?
  dsimp only
  rw [hpointer, if_neg hroom, List.drop_left, hsection]
  dsimp only
  rw [if_neg hlong]
  show (if 3 + word12 hi lo < 4 then pure none
    else if (table :: hi :: lo :: (body ++ (checksum ++ trailing))).length
        < 3 + word12 hi lo - 4 then pure none
      else pure (some ((table :: hi :: lo :: (body ++ (checksum ++ trailing))).take
        (3 + word12 hi lo - 4)))) = _
  rw [hvalue, if_neg hshort, if_neg hthere, htake]
  rfl

-- ================================================ the association table

/-- An entry of an association table. -/
structure ProgramEntry where
  program : Fin 65536
  spare : Fin 8 := 7
  stream : Fin 8192

/-- The bytes of an entry. -/
def ProgramEntry.bytes (e : ProgramEntry) : List UInt8 :=
  word16Bytes e.program ++ word13Bytes e.spare e.stream

/-- The stream of the first program that is one. -/
def firstProgram? (entries : List ProgramEntry) : Option (Fin 8192) :=
  (entries.find? (·.program ≠ 0)).map (·.stream)

/-- The first program that is none of the network's is taken. -/
private theorem programOf_entries (entries : List ProgramEntry) :
    programOf (entries.flatMap ProgramEntry.bytes) = (firstProgram? entries).map (·.val) := by
  induction entries with
  | nil => rfl
  | cons e rest ih =>
      obtain ⟨n1, n2, hprogram, hnumber⟩ := word16_bytes e.program
      obtain ⟨p1, p2, hpid, hstream⟩ := word13_bytes e.spare e.stream
      have hzero : word16 n1 n2 ≠ 0 ↔ e.program ≠ 0 := by
        rw [hnumber]
        exact not_congr Fin.val_eq_zero_iff
      rw [List.flatMap_cons, ProgramEntry.bytes, hprogram, hpid]
      show (if word16 n1 n2 ≠ 0 then some (word13 p1 p2)
        else programOf (rest.flatMap ProgramEntry.bytes)) = _
      by_cases hfirst : e.program = 0
      · rw [if_neg (fun h => hzero.1 h hfirst), ih]
        unfold firstProgram?
        rw [List.find?_cons_of_neg (by simp [hfirst])]
      · rw [if_pos (hzero.2 hfirst), hstream]
        unfold firstProgram?
        rw [List.find?_cons_of_pos (by simpa using hfirst)]
        rfl

/-- A payload brings an association table that names the stream of a map
table. What stands before the entries may be anything. -/
inductive NamesMap (map : Fin 8192) (payload : List UInt8) : Prop where
  | intro (front : List UInt8) (entries : List ProgramEntry) (hfront : front.length = 5)
      (hfirst : firstProgram? entries = some map)
      (hpayload : Brings associationTable (front ++ entries.flatMap ProgramEntry.bytes) payload)

theorem NamesMap.ne_nil {map : Fin 8192} {payload : List UInt8} (h : NamesMap map payload) :
    payload ≠ [] := by
  obtain ⟨_, _, _, _, hpayload⟩ := h
  exact hpayload.ne_nil

/-- The stream of the map table is read off an association table. -/
theorem NamesMap.mapStream? {map : Fin 8192} {payload : List UInt8} (h : NamesMap map payload)
    (hlength : payload.length ≤ 184) : mapStream? payload = .ok (some map.val) := by
  obtain ⟨front, entries, hfront, hfirst, hpayload⟩ := h
  obtain ⟨lengthBytes, htwo, hbody⟩ := hpayload.sectionBody? hlength
  have height : (associationTable :: (lengthBytes ++ front)).length = 8 := by
    rw [List.length_cons, List.length_append, htwo, hfront]
  have hsplit : associationTable :: (lengthBytes ++ (front ++ entries.flatMap ProgramEntry.bytes))
      = (associationTable :: (lengthBytes ++ front)) ++ entries.flatMap ProgramEntry.bytes := by
    rw [List.cons_append, List.append_assoc]
  have hlong : ¬ ((associationTable :: (lengthBytes ++ front))
      ++ entries.flatMap ProgramEntry.bytes).length < 8 := by
    rw [List.length_append, height]
    omega
  unfold Transport.mapStream?
  rw [hbody, hsplit]
  show (if _ < 8 then pure none else pure (programOf (List.drop 8 _))) = _
  rw [if_neg hlong, List.drop_left' height, programOf_entries, hfirst]
  rfl

-- ======================================================== the map table

/-- An entry of a map table: the type of a stream, the stream, and its
descriptors. -/
structure StreamEntry where
  type : UInt8
  spare : Fin 8 := 7
  stream : Fin 8192
  spareLength : Fin 16 := 15
  descriptors : List UInt8 := []
  bounded : descriptors.length < 4096 := by decide

/-- The bytes of an entry. -/
def StreamEntry.bytes (e : StreamEntry) : List UInt8 :=
  e.type :: (word13Bytes e.spare e.stream
    ++ (word12Bytes e.spareLength e.descriptors.length ++ e.descriptors))

/-- The first H.264 stream. -/
def firstVideo? (entries : List StreamEntry) : Option (Fin 8192) :=
  (entries.find? (·.type = videoType)).map (·.stream)

/-- An entry is five bytes and its descriptors. -/
theorem StreamEntry.length_bytes (e : StreamEntry) : e.bytes.length = 5 + e.descriptors.length := by
  simp only [StreamEntry.bytes, word13Bytes, word12Bytes, List.length_cons, List.length_append,
    List.length_nil]
  omega

/-- Entry by entry, whatever stands before them. -/
private theorem videoEntry?_entries (entries : List StreamEntry) (front : List UInt8) (fuel : Nat)
    (hfuel : entries.length < fuel) :
    videoEntry? (front ++ entries.flatMap StreamEntry.bytes) fuel front.length
      = .ok ((firstVideo? entries).map (·.val)) := by
  -- the cursor stands behind `front`, which grows by one entry at a time
  induction entries generalizing front fuel with
  | nil =>
      cases fuel with
      | zero => rfl
      | succ fuel =>
          have hend : (front ++ ([] : List StreamEntry).flatMap StreamEntry.bytes).length
              < front.length + 5 := by simp
          unfold videoEntry?
          exact if_pos hend
  | cons e rest ih =>
      cases fuel with
      | zero => cases hfuel
      | succ fuel =>
          obtain ⟨p1, p2, hpid, hstream⟩ := word13_bytes e.spare e.stream
          obtain ⟨l1, l2, hmore, hlength⟩ := word12_bytes e.spareLength e.bounded
          have hbytes : (e :: rest).flatMap StreamEntry.bytes
              = e.type :: p1 :: p2 :: l1 :: l2
                :: (e.descriptors ++ rest.flatMap StreamEntry.bytes) := by
            rw [List.flatMap_cons, StreamEntry.bytes, hpid, hmore]
            simp
          have hnext : front ++ (e :: rest).flatMap StreamEntry.bytes
              = (front ++ e.bytes) ++ rest.flatMap StreamEntry.bytes := by
            rw [List.flatMap_cons, List.append_assoc]
          have hcursor : front.length + 5 + e.descriptors.length = (front ++ e.bytes).length := by
            rw [List.length_append, e.length_bytes]
            omega
          have hthere : ¬ (front ++ (e :: rest).flatMap StreamEntry.bytes).length
              < front.length + 5 := by
            rw [hbytes]
            simp only [List.length_append, List.length_cons]
            omega
          have hbyte : ∀ i b, ((e :: rest).flatMap StreamEntry.bytes)[i]? = some b →
              byteAt (front ++ (e :: rest).flatMap StreamEntry.bytes) (front.length + i) = .ok b :=
            fun _ _ => byteAt_append_right front
          rw [hbytes] at hbyte
          have htype := hbyte 0 e.type rfl
          rw [Nat.add_zero] at htype
          unfold videoEntry?
          rw [if_neg hthere, hbytes, htype, hbyte 1 p1 rfl, hbyte 2 p2 rfl,
            hbyte 3 l1 rfl, hbyte 4 l2 rfl, ← hbytes]
          show (if e.type = videoType then pure (some (word13 p1 p2))
            else videoEntry? _ fuel (front.length + 5 + word12 l1 l2)) = _
          -- the entry is read; either it is the video's or the search goes on behind it
          rw [hstream, hlength]
          by_cases hvideo : e.type = videoType
          · rw [if_pos hvideo]
            unfold firstVideo?
            rw [List.find?_cons_of_pos (by simpa using hvideo)]
            rfl
          · rw [if_neg hvideo, hnext, hcursor]
            unfold firstVideo?
            rw [List.find?_cons_of_neg (by simpa using hvideo)]
            exact ih (front ++ e.bytes) fuel (Nat.lt_of_succ_lt_succ hfuel)

/-- A payload brings a map table whose first H.264 stream is the video.
What stands before the length of the program's descriptors may be
anything. -/
inductive NamesVideo (video : Fin 8192) (payload : List UInt8) : Prop where
  | intro (front : List UInt8) (spare : Fin 16) (descriptors : List UInt8)
      (entries : List StreamEntry) (hfront : front.length = 7)
      (hfirst : firstVideo? entries = some video)
      (hpayload : Brings mapTable
        (front ++ (word12Bytes spare descriptors.length
          ++ (descriptors ++ entries.flatMap StreamEntry.bytes))) payload)

theorem NamesVideo.ne_nil {video : Fin 8192} {payload : List UInt8}
    (h : NamesVideo video payload) : payload ≠ [] := by
  obtain ⟨_, _, _, _, _, _, hpayload⟩ := h
  exact hpayload.ne_nil

private theorem length_le_entries (entries : List StreamEntry) :
    entries.length ≤ (entries.flatMap StreamEntry.bytes).length := by
  induction entries with
  | nil => exact Nat.le_refl 0
  | cons e rest ih =>
      rw [List.flatMap_cons, List.length_append, e.length_bytes, List.length_cons]
      omega

/-- The video is read off a map table. -/
theorem NamesVideo.videoStream? {video : Fin 8192} {payload : List UInt8}
    (h : NamesVideo video payload) (hlength : payload.length ≤ 184) :
    videoStream? payload = .ok (some video.val) := by
  obtain ⟨front, spare, descriptors, entries, hfront, hfirst, hpayload⟩ := h
  obtain ⟨lengthBytes, htwo, hbody⟩ := hpayload.sectionBody? hlength
  have hbounded : descriptors.length < 4096 := by
    have hwhole := hpayload.length_le
    simp only [List.length_append] at hwhole
    omega
  obtain ⟨hi, lo, hbytes, hvalue⟩ := word12_bytes spare hbounded
  rw [hbytes] at hbody
  -- ten bytes stand before the length of the program's descriptors
  have hten : (mapTable :: (lengthBytes ++ front)).length = 10 := by
    rw [List.length_cons, List.length_append, htwo, hfront]
  have hsplit : mapTable :: (lengthBytes ++ (front ++ ([hi, lo]
        ++ (descriptors ++ entries.flatMap StreamEntry.bytes))))
      = (mapTable :: (lengthBytes ++ front)) ++ (hi :: lo
        :: (descriptors ++ entries.flatMap StreamEntry.bytes)) := by
    simp
  have hfound : (mapTable :: (lengthBytes ++ front)) ++ (hi :: lo
        :: (descriptors ++ entries.flatMap StreamEntry.bytes))
      = (mapTable :: (lengthBytes ++ front) ++ (hi :: lo :: descriptors))
        ++ entries.flatMap StreamEntry.bytes := by
    simp
  have hcursor : 12 + descriptors.length
      = (mapTable :: (lengthBytes ++ front) ++ (hi :: lo :: descriptors)).length := by
    rw [List.length_append, hten]
    simp only [List.length_cons]
    omega
  have hfuel : entries.length < ((mapTable :: (lengthBytes ++ front) ++ (hi :: lo :: descriptors))
      ++ entries.flatMap StreamEntry.bytes).length := by
    have hentries := length_le_entries entries
    rw [List.length_append, List.length_append, hten]
    omega
  have hhi : ((mapTable :: (lengthBytes ++ front)) ++ (hi :: lo
      :: (descriptors ++ entries.flatMap StreamEntry.bytes)))[10]? = some hi := by
    rw [List.getElem?_append_right (by omega), hten]
    rfl
  have hlo : ((mapTable :: (lengthBytes ++ front)) ++ (hi :: lo
      :: (descriptors ++ entries.flatMap StreamEntry.bytes)))[11]? = some lo := by
    rw [List.getElem?_append_right (by omega), hten]
    rfl
  unfold Transport.videoStream?
  rw [hbody, hsplit]
  dsimp only [bind, Except.bind]
  rw [hhi, hlo]
  dsimp only
  rw [hvalue, hfound, hcursor, videoEntry?_entries entries _ _ hfuel, hfirst]
  rfl

end VideoWall.Transport
