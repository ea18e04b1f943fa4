/-
Configuration records as they are written, and what is read off them.

# What a record is

A header of five bytes, the number of sequence parameter sets in the lower
five bits of a byte, these sets, the number of picture parameter sets in a
byte, and those sets; each set stands behind its length in two bytes
(`Record.bytes`). Anything may follow.

# How it is read

The sets are read off the front and what follows them is left
(`readSets_sets`). Reading never looks past what it takes, so what is read
off some bytes is read off more of them too, and the rest is longer by just
that much (`Reads.append`). A piece of a record that could be read would
therefore leave something of the whole record, of which nothing is left: so
only the whole can be read, wherever it is cut (`parameterSets_of_record`).
-/
import VideoWall.Bitstream.Avcc
import VideoWall.Proofs.Bitstream.Words

namespace VideoWall.Bitstream.Avcc

-- =============================================================== records

/-- A parameter set whose length two bytes can tell. -/
abbrev ParameterSet := Piece 65536

/-- What is written into a record. The three bits in front of the first
number are to spare. -/
structure Record where
  header : List UInt8
  spare : Fin 8
  sequence : List ParameterSet
  picture : List ParameterSet
  header_length : header.length = 5
  sequence_fits : sequence.length ≤ 31
  picture_fits : picture.length ≤ 255

namespace Record

/-- The byte that tells the number of sequence parameter sets. -/
def sequenceCount (r : Record) : UInt8 := UInt8.ofNat (r.spare.val * 32 + r.sequence.length)

/-- The byte that tells the number of picture parameter sets. -/
def pictureCount (r : Record) : UInt8 := UInt8.ofNat r.picture.length

/-- A record as it is written. -/
def bytes (r : Record) : List UInt8 :=
  r.header ++ r.sequenceCount :: (measured word16Bytes r.sequence
    ++ r.pictureCount :: measured word16Bytes r.picture)

/-- The lower five bits of a count are the count. -/
private theorem toNat_sequenceCount (r : Record) :
    (r.sequenceCount &&& 0x1F).toNat = r.sequence.length := by
  have hfits := r.sequence_fits
  have hspare := r.spare.isLt
  have hmask : ∀ n : Nat, n &&& 31 = n % 32 := fun n => Nat.and_two_pow_sub_one_eq_mod n 5
  unfold sequenceCount
  rw [UInt8.toNat_and, toNat_ofNat_byte (by omega)]
  show _ &&& 31 = _
  rw [hmask]
  omega

private theorem toNat_pictureCount (r : Record) : r.pictureCount.toNat = r.picture.length := by
  have hfits := r.picture_fits
  exact toNat_ofNat_byte (by omega)

end Record

-- =============================================================== reading

/-- Sets are read off the front as they were written, and no further. -/
private theorem readSets_sets (sets : List ParameterSet) (rest : List UInt8) :
    readSets sets.length (measured word16Bytes sets ++ rest)
      = .ok (sets.map Piece.bytes, rest) := by
  induction sets with
  | nil => rfl
  | cons s sets ih =>
      obtain ⟨hi, lo, hbytes, hword⟩ := word16_bytes ⟨s.bytes.length, s.fits⟩
      dsimp only at hword
      have hwritten : measured word16Bytes (s :: sets) ++ rest
          = hi :: lo :: (s.bytes ++ (measured word16Bytes sets ++ rest)) := by
        rw [measured_cons, hbytes]
        simp only [List.cons_append, List.nil_append, List.append_assoc]
      have hroom : s.bytes.length
          ≤ (s.bytes ++ (measured word16Bytes sets ++ rest)).length := by
        rw [List.length_append]
        omega
      rw [hwritten, List.length_cons]
      simp only [readSets, hword]
      rw [if_pos hroom, List.drop_left, List.take_left, ih]
      rfl

/-- What is read off some bytes is read off more of them. -/
theorem readSets_append {count : Nat} {bytes after : List UInt8} {sets : List (List UInt8)}
    (h : readSets count bytes = .ok (sets, after)) (more : List UInt8) :
    readSets count (bytes ++ more) = .ok (sets, after ++ more) := by
  induction count generalizing bytes sets with
  | zero =>
      cases h
      rfl
  | succ count ih =>
      match bytes with
      | [] | [_] => cases h
      | hi :: lo :: rest =>
          simp only [readSets] at h
          split at h
          case isFalse => cases h
          case isTrue hroom =>
            cases hlater : readSets count (rest.drop (word16 hi lo)) with
            | error e =>
                rw [hlater] at h
                cases h
            | ok later =>
                obtain ⟨laterSets, laterAfter⟩ := later
                rw [hlater] at h
                cases h
                have hroom' : word16 hi lo ≤ (rest ++ more).length := by
                  rw [List.length_append]
                  omega
                simp only [List.cons_append, readSets]
                rw [if_pos hroom', List.drop_append_of_le_length hroom,
                  List.take_append_of_le_length hroom, ih hlater]
                rfl

/-- How bytes are read as a record: what sets are found, and what is left. -/
inductive Reads : List UInt8 → List (List UInt8) → List UInt8 → Prop where
  | intro (header bytes : List UInt8) (sequenceCount pictureCount : UInt8)
      {rest after : List UInt8} {sequence picture : List (List UInt8)}
      (hheader : header.length = 5)
      (hsequence : readSets (sequenceCount &&& 0x1F).toNat bytes
        = .ok (sequence, pictureCount :: rest))
      (hpicture : readSets pictureCount.toNat rest = .ok (picture, after)) :
      Reads (header ++ sequenceCount :: bytes) (sequence ++ picture) after

/-- The sets of a record are found just when it can be read. -/
theorem parameterSets_eq_ok_iff {record : List UInt8} {sets : List (List UInt8)} :
    parameterSets record = .ok sets ↔ ∃ after, Reads record sets after := by
  constructor
  · intro h
    unfold parameterSets at h
    split at h
    case isTrue => cases h
    case isFalse hlong =>
      -- five bytes of header, then two counted lists
      have hheader : (record.take 5).length = 5 := List.length_take_of_le (by omega)
      rw [← List.take_append_drop 5 record]
      generalize record.drop 5 = body at h
      match body with
      | [] => cases h
      | count :: bytes =>
          dsimp only at h
          cases hsequence : readSets (count &&& 0x1F).toNat bytes with
          | error e =>
              rw [hsequence] at h
              cases h
          | ok found =>
              rw [hsequence] at h
              obtain ⟨sequence, _ | ⟨pictureCount, rest⟩⟩ := found
              · cases h
              · cases hpicture : readSets pictureCount.toNat rest with
                | error e =>
                    simp only [bind, Except.bind, hpicture] at h
                    cases h
                | ok last =>
                    simp only [bind, Except.bind, hpicture] at h
                    cases h
                    exact ⟨_, .intro _ bytes count pictureCount hheader hsequence hpicture⟩
  · rintro ⟨after, hreads⟩
    cases hreads with
    | intro header bytes sequenceCount pictureCount hheader hsequence hpicture =>
        have hlong : ¬ (header ++ sequenceCount :: bytes).length < 5 := by
          rw [List.length_append]
          omega
        unfold parameterSets
        rw [if_neg hlong, ← hheader, List.drop_left]
        dsimp only
        rw [hsequence]
        simp only [bind, Except.bind, hpicture]
        rfl

/-- What is read off some bytes is read off more of them, and more is left. -/
theorem Reads.append {record after : List UInt8} {sets : List (List UInt8)}
    (h : Reads record sets after) (more : List UInt8) :
    Reads (record ++ more) sets (after ++ more) := by
  cases h with
  | intro header bytes sequenceCount pictureCount hheader hsequence hpicture =>
      rw [List.append_assoc]
      exact .intro header (bytes ++ more) sequenceCount pictureCount hheader
        (readSets_append hsequence more) (readSets_append hpicture more)

/-- What is left behind the sets does not depend on how they are read. -/
theorem Reads.unique {record after after' : List UInt8} {sets sets' : List (List UInt8)}
    (h : Reads record sets after) (h' : Reads record sets' after') : after = after' := by
  obtain ⟨header, bytes, sequenceCount, pictureCount, hheader, hsequence, hpicture⟩ := h
  generalize hrecord : header ++ sequenceCount :: bytes = record at h'
  obtain ⟨header', bytes', sequenceCount', pictureCount', hheader', hsequence', hpicture'⟩ := h'
  obtain ⟨-, hbody⟩ := List.append_inj hrecord (hheader.trans hheader'.symm)
  cases hbody
  rw [hsequence] at hsequence'
  cases hsequence'
  rw [hpicture] at hpicture'
  cases hpicture'
  rfl

/-- A record is read as it was written, and what follows it is left. -/
private theorem Record.reads (r : Record) (trailing : List UInt8) :
    Reads (r.bytes ++ trailing) ((r.sequence ++ r.picture).map Piece.bytes) trailing := by
  have hsequence := readSets_sets r.sequence
    (r.pictureCount :: (measured word16Bytes r.picture ++ trailing))
  have hpicture := readSets_sets r.picture trailing
  rw [← r.toNat_sequenceCount] at hsequence
  rw [← r.toNat_pictureCount] at hpicture
  have hbytes : r.bytes ++ trailing = r.header ++ r.sequenceCount
      :: (measured word16Bytes r.sequence
        ++ r.pictureCount :: (measured word16Bytes r.picture ++ trailing)) := by
    unfold Record.bytes
    simp only [List.append_assoc, List.cons_append]
  rw [hbytes, List.map_append]
  exact .intro r.header _ r.sequenceCount r.pictureCount r.header_length hsequence hpicture

-- =============================================================== the law

/-- The sets of a record come out behind start codes, in order, whatever
follows the record. And no piece of a record can be read, wherever it is cut
off. -/
theorem parameterSets_of_record (r : Record) :
    (∀ trailing : List UInt8, parameterSetsAnnexb (r.bytes ++ trailing)
        = .ok ((r.sequence ++ r.picture).flatMap fun s => [0, 0, 0, 1] ++ s.bytes))
      ∧ ∀ front : List UInt8, front <+: r.bytes → front ≠ r.bytes →
          ∃ error, parameterSetsAnnexb front = .error error := by
  refine ⟨fun trailing => ?_, fun front hfront hcut => ?_⟩
  · have hsets := parameterSets_eq_ok_iff.2 ⟨trailing, r.reads trailing⟩
    unfold parameterSetsAnnexb
    rw [hsets]
    show Except.ok (Annexb.join _) = _
    unfold Annexb.join
    rw [List.flatMap_map]
    rfl
  · obtain ⟨more, hmore⟩ := hfront
    unfold parameterSetsAnnexb
    cases hsets : parameterSets front with
    | error e => exact ⟨e, rfl⟩
    | ok sets =>
        -- reading this piece would leave `more` of the whole, which leaves nothing
        obtain ⟨after, hpiece⟩ := parameterSets_eq_ok_iff.1 hsets
        have hlonger := hpiece.append more
        have hwhole := r.reads []
        rw [hmore] at hlonger
        rw [List.append_nil] at hwhole
        have hnothing : more = [] := (List.append_eq_nil_iff.1 (hlonger.unique hwhole)).2
        rw [hnothing, List.append_nil] at hmore
        exact absurd hmore hcut

/-- A record with one set of each kind. -/
def smallRecord : Record where
  header := [1, 0x42, 0xC0, 0x1E, 0xFF]
  spare := ⟨7, by decide⟩
  sequence := [⟨[0x67, 0x42], by decide⟩]
  picture := [⟨[0x68], by decide⟩]
  header_length := rfl
  sequence_fits := by decide
  picture_fits := by decide

/-- It is cut off in its first set. -/
theorem smallRecord_cut_off :
    smallRecord.bytes = [1, 0x42, 0xC0, 0x1E, 0xFF, 0xE1, 0, 2, 0x67, 0x42, 1, 0, 1, 0x68]
      ∧ ([1, 0x42, 0xC0, 0x1E, 0xFF, 0xE1, 0, 2, 0x67] <+: smallRecord.bytes
        ∧ [1, 0x42, 0xC0, 0x1E, 0xFF, 0xE1, 0, 2, 0x67] ≠ smallRecord.bytes)
      ∧ ∃ error, parameterSetsAnnexb [1, 0x42, 0xC0, 0x1E, 0xFF, 0xE1, 0, 2, 0x67]
          = .error error := by
  have hfront : [1, 0x42, 0xC0, 0x1E, 0xFF, 0xE1, 0, 2, 0x67] <+: smallRecord.bytes := by decide
  have hcut : [1, 0x42, 0xC0, 0x1E, 0xFF, 0xE1, 0, 2, 0x67] ≠ smallRecord.bytes := by decide
  exact ⟨by decide, ⟨hfront, hcut⟩, (parameterSets_of_record smallRecord).2 _ hfront hcut⟩

end VideoWall.Bitstream.Avcc
