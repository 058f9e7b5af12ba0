import Mathlib.Tactic

/-!
# Two codecs for one wire format

Two programs that talk to each other have a decoder and an encoder each, over value types of their
own. `view` shows a value of the second program as one of the first.

* `SameFormat` — on a byte string both decoders agree, and what either accepts is encoded to the
  same bytes by both and read back by both.
* `sameFormat_iff` — when the second decoder is the stricter one and its values make the round
  trip, the two agree on exactly the byte strings that it does not refuse alone.
-/

namespace QCrate.Lib

variable {α β ι ε₁ ε₂ : Type*}

/-- A decoder accepts a byte string. -/
def Accepted {ε : Type*} (r : Except ε α) : Prop := ∃ v, r = .ok v

/-- The two values have one encoding, from which both decoders recover them. -/
structure RoundTrip (decode₁ : ι → Except ε₁ α) (encode₁ : α → Except ε₁ ι)
    (decode₂ : ι → Except ε₂ β) (encode₂ : β → Except ε₂ ι) (v : α) (w : β) : Prop where
  intro ::
  encoded : ∃ out, encode₁ v = .ok out ∧ encode₂ w = .ok out ∧ decode₁ out = .ok v ∧
    decode₂ out = .ok w

/-- On the byte string `b` the two codecs are codecs of one format. -/
structure SameFormat (decode₁ : ι → Except ε₁ α) (encode₁ : α → Except ε₁ ι)
    (decode₂ : ι → Except ε₂ β) (encode₂ : β → Except ε₂ ι) (view : β → α) (b : ι) : Prop where
  accepted : Accepted (decode₁ b) ↔ Accepted (decode₂ b)
  value : ∀ v w, decode₁ b = .ok v → decode₂ b = .ok w → view w = v
  first : ∀ v, decode₁ b = .ok v →
    ∃ w, view w = v ∧ RoundTrip decode₁ encode₁ decode₂ encode₂ v w
  second : ∀ w, decode₂ b = .ok w → RoundTrip decode₁ encode₁ decode₂ encode₂ (view w) w

variable {decode₁ : ι → Except ε₁ α} {encode₁ : α → Except ε₁ ι}
  {decode₂ : ι → Except ε₂ β} {encode₂ : β → Except ε₂ ι} {view : β → α}

theorem sameFormat_iff (hstrict : ∀ b w, decode₂ b = .ok w → decode₁ b = .ok (view w))
    (htrip : ∀ b w, decode₂ b = .ok w → RoundTrip decode₁ encode₁ decode₂ encode₂ (view w) w)
    (b : ι) :
    SameFormat decode₁ encode₁ decode₂ encode₂ view b ↔
      (Accepted (decode₁ b) → Accepted (decode₂ b)) := by
  constructor
  · exact fun h => h.accepted.mp
  · intro h
    have hvalue : ∀ v w, decode₁ b = .ok v → decode₂ b = .ok w → view w = v := by
      intro v w hv hw
      rw [hstrict b w hw] at hv
      cases hv
      rfl
    refine ⟨⟨h, ?_⟩, hvalue, ?_, htrip b⟩
    · rintro ⟨w, hw⟩
      exact ⟨view w, hstrict b w hw⟩
    · intro v hv
      obtain ⟨w, hw⟩ := h ⟨v, hv⟩
      obtain rfl := hvalue v w hv hw
      exact ⟨w, rfl, htrip b w hw⟩

end QCrate.Lib
