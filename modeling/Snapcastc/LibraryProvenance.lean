import Mathlib.Data.Set.Lattice

/-! Where things come from: whatever is in one place was made of something that is in another one. -/

namespace Provenance

variable {α β γ : Type}

/-- Everything in `place` was made of something in `source`. -/
def Drawn (made : α → β → Prop) (source : Set α) (place : Set β) : Prop :=
  ∀ b ∈ place, ∃ a ∈ source, made a b

namespace Drawn

variable {made : α → β → Prop} {source source' : Set α} {place place' : Set β}

/-- What was put there as it was. -/
theorem subset {made : α → α → Prop} {source place : Set α} (hrefl : ∀ a, made a a) (hsub : place ⊆ source) :
    Drawn made source place :=
  fun a ha => ⟨a, hsub ha, hrefl a⟩

/-- More to draw from, and less that was drawn. -/
theorem mono (hsource : source ⊆ source') (hplace : place' ⊆ place) (hdrawn : Drawn made source place) :
    Drawn made source' place' := by
  intro b hb
  obtain ⟨a, ha, hmade⟩ := hdrawn b (hplace hb)
  exact ⟨a, hsource ha, hmade⟩

theorem union (hfirst : Drawn made source place) (hsecond : Drawn made source place') :
    Drawn made source (place ∪ place') := by
  rintro b (hb | hb)
  · exact hfirst b hb
  · exact hsecond b hb

/-- What is made in two steps. -/
theorem trans {made' : β → γ → Prop} {made'' : α → γ → Prop} {last : Set γ}
    (hcomp : ∀ {a b c}, made a b → made' b c → made'' a c) (hfirst : Drawn made source place)
    (hsecond : Drawn made' place last) : Drawn made'' source last := by
  intro c hc
  obtain ⟨b, hb, hmade'⟩ := hsecond c hc
  obtain ⟨a, ha, hmade⟩ := hfirst b hb
  exact ⟨a, ha, hcomp hmade hmade'⟩

end Drawn

end Provenance
