/-
Walks: what happens in a run, one thing after the other, where each
thing may happen in some standings only and leads to the next one. A law
about the whole run is then a law about walks, by induction on them, and
what holds at a place in the run is read off by splitting the walk
there.
-/
import Mathlib.Data.List.Basic

namespace VideoWall

variable {σ α : Type} {goes : σ → α → σ → Prop} {a b c : σ} {x : α} {t u : List α}

/-- Things that happen one after the other, from a standing to a standing. -/
inductive Walk (goes : σ → α → σ → Prop) : σ → List α → σ → Prop where
  | stay (a : σ) : Walk goes a [] a
  | step {a b c : σ} {x : α} {later : List α} (h : goes a x b) (hlater : Walk goes b later c) :
      Walk goes a (x :: later) c

namespace Walk

theorem single (h : goes a x b) : Walk goes a [x] b := .step h (.stay b)

/-- A walk may be followed by another one from where it ends. -/
theorem append (h : Walk goes a t b) (h' : Walk goes b u c) : Walk goes a (t ++ u) c := by
  induction h with
  | stay a => exact h'
  | step hgoes _ ih => exact .step hgoes (ih h')

/-- A walk has a standing after each of its parts. -/
private theorem split (h : Walk goes a (t ++ u) c) : ∃ b, Walk goes a t b ∧ Walk goes b u c := by
  induction t generalizing a with
  | nil => exact ⟨a, .stay a, h⟩
  | cons x rest ih =>
      cases h with
      | step hgoes hlater =>
          obtain ⟨b, hleft, hright⟩ := ih hlater
          exact ⟨b, .step hgoes hleft, hright⟩

/-- A walk has a standing before and after each thing that happens. -/
theorem at_place (h : Walk goes a (t ++ x :: u) c) :
    ∃ b b', Walk goes a t b ∧ goes b x b' ∧ Walk goes b' u c := by
  obtain ⟨b, hleft, hright⟩ := h.split
  cases hright with
  | step hgoes hlater => exact ⟨b, _, hleft, hgoes, hlater⟩

/-- What happens last leads to where the walk ends. -/
theorem last (h : Walk goes a (t ++ [x]) c) : ∃ b, Walk goes a t b ∧ goes b x c := by
  obtain ⟨b, b', hleft, hgoes, hlater⟩ := h.at_place
  cases hlater
  exact ⟨b, hleft, hgoes⟩

end Walk

end VideoWall
