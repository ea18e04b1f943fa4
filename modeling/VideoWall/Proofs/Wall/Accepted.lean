/-
The layouts that the program accepts.

The wall is opened with the layout that was saved, unless the command line
asks for another one. Wherever it comes from, its numbers have been read as
words (`Layout.Accepted.inWords`), and that is all that is known of them: no
one looks at how large they are together.
-/
import VideoWall.Program.Run
import VideoWall.Proofs.CommandLine.Words
import VideoWall.Proofs.Json.Records

namespace VideoWall

open Json CommandLine Numeral

namespace Wall

-- =========================================================== saved views

namespace Layout

/-- The numbers of a layout are words. -/
def InWords : Layout → Prop
  | .single => True
  | .count streams => streams ≤ maxWord64
  | .custom columns rows => columns ≤ maxWord64 ∧ rows ≤ maxWord64

theorem yields_word : (decodeNat 64 "usize").Yields (· ≤ maxWord64) :=
  fun node n h => Nat.le_of_lt_succ (yields_decodeNat 64 "usize" node n h)

/-- A layout that is read is in words. -/
theorem inWords_ofContent {content : Value} {mode : Mode} {layout : Layout}
    (h : ofContent content mode = .ok layout) : layout.InWords := by
  cases mode with
  | single =>
      obtain ⟨_, -, rfl⟩ := exists_of_map h
      trivial
  | count =>
      obtain ⟨n, hread, rfl⟩ := exists_of_map h
      have hstreams : n ≤ maxWord64 := by
        refine Record.keeps_ofValue (P := (· ≤ maxWord64)) (Nat.zero_le _) ?_ hread
        simp only [countReading, List.forall_mem_cons]
        exact ⟨keeps_field yields_word (fun _ _ hv _ => hv) _ _, by simp⟩
      exact hstreams
  | custom =>
      obtain ⟨size, hread, rfl⟩ := exists_of_map h
      have hsize : size.1 ≤ maxWord64 ∧ size.2 ≤ maxWord64 := by
        refine Record.keeps_ofValue (P := fun s => s.1 ≤ maxWord64 ∧ s.2 ≤ maxWord64)
          ⟨Nat.zero_le _, Nat.zero_le _⟩ ?_ hread
        simp only [customReading, List.forall_mem_cons]
        refine ⟨?_, ?_, by simp⟩
        · exact keeps_field yields_word (fun _ _ hv h => ⟨hv, h.2⟩) _ _
        · exact keeps_field yields_word (fun _ _ hv h => ⟨h.1, hv⟩) _ _
      exact hsize

theorem inWords_decode (depth : Nat) : Decoder.Yields InWords (decode depth) := by
  intro node layout h
  unfold decode at h
  split at h
  case h_1 start members =>
    cases hscan : scanMembers depth none [] members with
    | error e =>
        rw [hscan] at h
        cases h
    | ok found =>
        rw [hscan] at h
        exact inWords_ofContent h
  case h_2 => cases h
  case h_3 => cases h
  case h_4 start tag settled rest =>
    cases hmode : (decodeMode tag).mapError (Error.placedAt settled) with
    | error e =>
        rw [hmode] at h
        cases h
    | ok mode =>
        cases hvalues : rest.toValues depth with
        | error e =>
            rw [hmode, hvalues] at h
            cases h
        | ok values =>
            rw [hmode, hvalues] at h
            exact inWords_ofContent h
  case h_5 => cases h

end Layout

/-- The numbers of a view are words. -/
structure View.InWords (v : View) : Prop where
  layout : v.layout.InWords
  page : v.page ≤ maxWord64

/-- The numbers of a view that is remembered are words. -/
theorem Preferences.inWords_parse {text : List Char} {p : Preferences}
    (h : Preferences.parse text = .ok p) : p.view.InWords := by
  have hreading : Decoder.Yields (fun p => p.view.InWords) Preferences.reading.decode := by
    apply Record.keeps
    · exact ⟨show 4 ≤ maxWord64 by decide, Nat.zero_le _⟩
    · simp only [Preferences.reading, List.forall_mem_cons]
      refine ⟨?_, ?_, ?_, ?_, by simp⟩
      · exact keeps_field (Layout.inWords_decode _) (fun _ _ hv h => ⟨hv, h.page⟩) _ _
      · exact keeps_field Layout.yields_word (fun _ _ hv h => ⟨h.layout, hv⟩) _ _
      · exact keeps_apart (fun _ _ h => ⟨h.layout, h.page⟩) _ _
      · exact keeps_apart (fun _ _ h => ⟨h.layout, h.page⟩) _ _
  exact hreading.decode h

end Wall

-- ========================================================== command line

namespace Program

/-- The live wall is opened without a command, or by the command of that
name. -/
private theorem command?_eq_live {levels : List Level} {o : LiveOptions}
    (h : command? levels = some (.live o)) : ∃ l ∈ levels, o = liveOptions l := by
  unfold command? at h
  split at h
  · split at h
    · cases h
      exact ⟨_, List.mem_singleton_self _, rfl⟩
    · cases h
    · cases h
  · split at h
    · cases h
    · obtain ⟨action, -, hptz⟩ := Option.map_eq_some_iff.1 h
      cases hptz
    · cases h
    · cases h
  · cases h

/-- The columns and rows that are read from a command line are words. -/
private theorem words_of_read {environment : String → Option String} {arguments : List String}
    {i : Invocation} {o : LiveOptions} (hread : Invocation.read environment arguments = .ok i)
    (hwall : i.wall? = some o) :
    (∀ n, o.columns = some n → n ≤ maxWord64) ∧ ∀ n, o.rows = some n → n ≤ maxWord64 := by
  obtain ⟨levels, hlevels, rfl⟩ := exists_of_map hread
  have hwords := inWords_read interface environment arguments levels hlevels
  unfold Invocation.wall? at hwall
  split at hwall
  · cases hwall
    exact ⟨nofun, nofun⟩
  case h_2 options hlive =>
    cases hwall
    obtain ⟨l, hl, rfl⟩ := command?_eq_live hlive
    have hl' := hwords l (List.mem_of_mem_drop hl)
    exact ⟨fun n hn => hl'.natural hn, fun n hn => hl'.natural hn⟩
  · cases hwall

/-- A layout asked for in words is in words. -/
theorem LiveOptions.inWords_layout {o : LiveOptions}
    (hcolumns : ∀ n, o.columns = some n → n ≤ maxWord64)
    (hrows : ∀ n, o.rows = some n → n ≤ maxWord64) {layout : Wall.Layout}
    (h : o.layout? = some layout) : layout.InWords := by
  unfold LiveOptions.layout? at h
  split at h
  case h_1 columns rows hc hr =>
    cases h
    exact ⟨hcolumns columns hc, hrows rows hr⟩
  case h_2 =>
    obtain ⟨text, -, hcount⟩ := Option.bind_eq_some_iff.1 h
    obtain ⟨n, hn, hpreset⟩ := Option.bind_eq_some_iff.1 hcount
    cases hpreset
    have hword : n ≤ maxWord64 := by
      cases hread : readNat maxWord64 text.toList with
      | error e =>
          rw [hread] at hn
          cases hn
      | ok m =>
          rw [hread] at hn
          cases hn
          exact readNat_le hread
    unfold Wall.Layout.preset
    split
    · trivial
    · exact hword

end Program

-- ============================================================== accepted

namespace Wall

/-- The wall can be opened with a layout: it is the one of a saved view, or
asked for on a command line. -/
inductive Layout.Accepted : Layout → Prop where
  | saved {text : List Char} {p : Preferences} (hread : Preferences.parse text = .ok p) :
      Accepted p.view.layout
  | asked {environment : String → Option String} {arguments : List String}
      {i : Program.Invocation} {o : Program.LiveOptions} {layout : Layout}
      (hread : Program.Invocation.read environment arguments = .ok i) (hwall : i.wall? = some o)
      (hlayout : o.layout? = some layout) : Accepted layout

/-- An accepted layout is in words. -/
theorem Layout.Accepted.inWords {layout : Layout} (h : layout.Accepted) : layout.InWords := by
  cases h with
  | saved hread => exact (Preferences.inWords_parse hread).layout
  | asked hread hwall hlayout =>
      obtain ⟨hcolumns, hrows⟩ := Program.words_of_read hread hwall
      exact Program.LiveOptions.inWords_layout hcolumns hrows hlayout

end Wall

end VideoWall
