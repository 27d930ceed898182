import Mathlib.Data.Set.Finite.Basic
import Mathlib.Data.Fintype.Card
import Mathlib.Order.WellFounded

/-!
# What survives in a set with a strict order

`Kept beats T v`: `v` is in `T` and nothing of `T` beats it.  When `beats` is a strict order
on a finite `T`, everything in `T` is kept or beaten by something kept (`exists_kept`), so one
element at a time can be added by looking at the kept ones only:

    something kept beats e   →  Kept (insert e T) = Kept T                       (insert_beaten)
    nothing kept beats e     →  Kept (insert e T) = e and what e does not beat   (insert_unbeaten)
-/

namespace Strfry

variable {α : Type} {beats : α → α → Prop} {T : Set α}

def Kept (beats : α → α → Prop) (T : Set α) (v : α) : Prop := v ∈ T ∧ ∀ w ∈ T, ¬ beats w v

/-- `beats` is a strict order on `T`. -/
structure StrictOn (beats : α → α → Prop) (T : Set α) : Prop where
  irrefl : ∀ a ∈ T, ¬ beats a a
  trans : ∀ a ∈ T, ∀ b ∈ T, ∀ c ∈ T, beats a b → beats b c → beats a c

theorem StrictOn.mono {S : Set α} (h : StrictOn beats T) (hs : S ⊆ T) : StrictOn beats S where
  irrefl a ha := h.irrefl a (hs ha)
  trans a ha b hb c hc := h.trans a (hs ha) b (hs hb) c (hs hc)

/-- Everything is kept or beaten by something kept. -/
theorem StrictOn.exists_kept (h : StrictOn beats T) (hfin : T.Finite) {v : α} (hv : v ∈ T) :
    ∃ s, Kept beats T s ∧ (s = v ∨ beats s v) := by
  have : Finite T := hfin
  let r : T → T → Prop := fun a b => beats a b
  have : IsTrans T r := ⟨fun a b c hab hbc => h.trans a a.2 b b.2 c c.2 hab hbc⟩
  have : Std.Irrefl r := ⟨fun a => h.irrefl a a.2⟩
  have hwf : WellFounded r := Finite.wellFounded_of_trans_of_irrefl r
  -- a minimal one among those at or above `v`
  obtain ⟨s, hs, hmin⟩ := hwf.has_min {a | a.1 = v ∨ beats a v} ⟨⟨v, hv⟩, Or.inl rfl⟩
  refine ⟨s, ⟨s.2, fun w hw hws => hmin ⟨w, hw⟩ ?_ hws⟩, hs⟩
  rcases hs with hs | hs
  · exact Or.inr (hs ▸ hws)
  · exact Or.inr (h.trans w hw s s.2 v hv hws hs)

section
variable {e : α} (h : StrictOn beats (insert e T)) (hfin : T.Finite)
include h

theorem StrictOn.insert_beaten {s : α} (hs : Kept beats T s) (hse : beats s e) (v : α) :
    Kept beats (insert e T) v ↔ Kept beats T v := by
  have he : e ∈ insert e T := Set.mem_insert e T
  constructor
  · rintro ⟨hv | hv, hno⟩
    · exact absurd (hv ▸ hse) (hno s (Set.mem_insert_of_mem _ hs.1))
    · exact ⟨hv, fun w hw => hno w (Set.mem_insert_of_mem _ hw)⟩
  · rintro ⟨hv, hno⟩
    refine ⟨Set.mem_insert_of_mem _ hv, fun w hw hwv => ?_⟩
    rcases hw with rfl | hw
    · exact hno s hs.1 (h.trans s (Set.mem_insert_of_mem _ hs.1) w he v (Set.mem_insert_of_mem _ hv) hse hwv)
    · exact hno w hw hwv

include hfin

theorem StrictOn.insert_unbeaten (hno : ∀ s, Kept beats T s → ¬ beats s e) (v : α) :
    Kept beats (insert e T) v ↔ (Kept beats T v ∧ ¬ beats e v) ∨ v = e := by
  have he : e ∈ insert e T := Set.mem_insert e T
  have hT := h.mono (Set.subset_insert e T)
  have hnone : ∀ w ∈ T, ¬ beats w e := by
    intro w hw hwe
    obtain ⟨s, hs, rfl | hsw⟩ := hT.exists_kept hfin hw
    · exact hno s hs hwe
    · exact hno s hs (h.trans s (Set.mem_insert_of_mem _ hs.1) w (Set.mem_insert_of_mem _ hw) e he hsw hwe)
  constructor
  · rintro ⟨rfl | hv, hk⟩
    · exact Or.inr rfl
    · exact Or.inl ⟨⟨hv, fun w hw => hk w (Set.mem_insert_of_mem _ hw)⟩, hk e he⟩
  · rintro (⟨⟨hv, hk⟩, hev⟩ | rfl)
    · refine ⟨Set.mem_insert_of_mem _ hv, fun w hw => ?_⟩
      rcases hw with rfl | hw
      · exact hev
      · exact hk w hw
    · refine ⟨he, fun w hw => ?_⟩
      rcases hw with rfl | hw
      · exact h.irrefl w he
      · exact hnone w hw

end

end Strfry
