import Mathlib.Data.Fintype.EquivFin
import Mathlib.Logic.Relation
import Mathlib.Order.WellFounded

/-!
Acyclic relations that grow: no path leads from a point back to itself. A cycle
that an extension closes passes through one of the new edges, and a finite acyclic
relation has a sink below every point.
-/

namespace Codex2Lark.Lib

open Relation

variable {α : Type*}

def Acyclic (r : α → α → Prop) : Prop :=
  ∀ a, ¬ TransGen r a a

variable {r s : α → α → Prop}

theorem Acyclic.mono (hacyclic : Acyclic s) (himp : ∀ a b, r a b → s a b) : Acyclic r :=
  fun a hcycle => hacyclic a (TransGen.mono himp _ _ hcycle)

/-- A path either uses old edges only or passes along a new one. -/
theorem path_cases {a b : α} (hpath : TransGen s a b) :
    TransGen r a b ∨ ∃ x y, s x y ∧ ¬ r x y ∧ ReflTransGen s a x ∧ ReflTransGen s y b := by
  induction hpath with
  | @single b hedge =>
      by_cases hold : r a b
      · exact .inl (.single hold)
      · exact .inr ⟨a, b, hedge, hold, .refl, .refl⟩
  | @tail b c hbefore hedge ih =>
      rcases ih with hold | ⟨x, y, hnew, hnot, hto, hfrom⟩
      · by_cases hlast : r b c
        · exact .inl (.tail hold hlast)
        · exact .inr ⟨b, c, hedge, hlast, hbefore.to_reflTransGen, .refl⟩
      · exact .inr ⟨x, y, hnew, hnot, hto, .tail hfrom hedge⟩

/-- An extension stays acyclic when none of its new edges lies on a cycle. -/
theorem Acyclic.extend (hacyclic : Acyclic r)
    (hguard : ∀ x y, s x y → ¬ r x y → ¬ ReflTransGen s y x) : Acyclic s := by
  intro a hcycle
  rcases path_cases hcycle with hold | ⟨x, y, hnew, hnot, hto, hfrom⟩
  · exact hacyclic a hold
  · exact hguard x y hnew hnot (hfrom.trans hto)

/-- The same for the points that the new edges start from. -/
theorem Acyclic.extend_sources {X : α → Prop} (hacyclic : Acyclic r)
    (hnew : ∀ a b, s a b → r a b ∨ X a) (hguard : ∀ x, X x → ¬ TransGen s x x) : Acyclic s := by
  refine hacyclic.extend ?_
  intro x y hedge hnot hback
  exact hguard x ((hnew x y hedge).resolve_left hnot) (.head' hedge hback)

/-- A fresh point closes no cycle when, in case it lies below `p`, none of the points
below it reaches `p`. -/
theorem Acyclic.insert {p n : α} {D : α → Prop} (hacyclic : Acyclic r)
    (hnew : ∀ a b, s a b → r a b ∨ a = p ∧ b = n ∨ a = n ∧ D b) (hne : p ≠ n) (hself : ¬ D n)
    (hfresh : ∀ a, ¬ r a n ∧ ¬ r n a) (hguard : s p n → ∀ d, D d → ¬ ReflTransGen r d p) :
    Acyclic s := by
  have hreach : ∀ a, ReflTransGen s a n → a = n ∨ s p n ∧ ReflTransGen r a p := by
    intro a hpath
    induction hpath using ReflTransGen.head_induction_on with
    | refl => exact .inl rfl
    | head hedge _ ih =>
        rcases hnew _ _ hedge with hold | ⟨rfl, rfl⟩ | ⟨rfl, _⟩
        · rcases ih with rfl | ⟨hlink, hbelow⟩
          · exact absurd hold (hfresh _).1
          · exact .inr ⟨hlink, .head hold hbelow⟩
        · exact .inr ⟨hedge, .refl⟩
        · exact .inl rfl
  have hnoCycle : ¬ TransGen s n n := by
    intro hcycle
    obtain ⟨d, hedge, hback⟩ := TransGen.head'_iff.mp hcycle
    rcases hnew _ _ hedge with hold | ⟨hsame, _⟩ | ⟨_, hd⟩
    · exact (hfresh d).2 hold
    · exact hne hsame.symm
    · rcases hreach d hback with rfl | ⟨hlink, hto⟩
      · exact hself hd
      · exact hguard hlink d hd hto
  refine hacyclic.extend ?_
  intro x y hedge hnot hback
  rcases hnew x y hedge with hold | ⟨rfl, rfl⟩ | ⟨rfl, _⟩
  · exact hnot hold
  · exact hnoCycle (.tail' hback hedge)
  · exact hnoCycle (.head' hedge hback)

/-- Following the edges from a point of a finite set that they do not leave ends in
a point without edges. -/
theorem Acyclic.exists_sink (hacyclic : Acyclic r) {points : Set α} (hfinite : points.Finite)
    (hclosed : ∀ a b, a ∈ points → r a b → b ∈ points) {start : α} (hstart : start ∈ points) :
    ∃ sink ∈ points, ReflTransGen r start sink ∧ ∀ b, ¬ r sink b := by
  have hwellFounded : WellFounded fun b a : points => TransGen r a.1 b.1 := by
    have : Finite points := hfinite
    have : IsTrans points fun b a => TransGen r a.1 b.1 := ⟨fun _ _ _ hba hcb => hcb.trans hba⟩
    have : Std.Irrefl fun b a : points => TransGen r a.1 b.1 := ⟨fun a => hacyclic a.1⟩
    exact Finite.wellFounded_of_trans_of_irrefl _
  obtain ⟨sink, hreached, hlast⟩ := hwellFounded.has_min {a | ReflTransGen r start a.1}
    ⟨⟨start, hstart⟩, ReflTransGen.refl⟩
  refine ⟨sink.1, sink.2, hreached, ?_⟩
  intro b hedge
  exact hlast ⟨b, hclosed _ _ sink.2 hedge⟩ (hreached.tail hedge) (.single hedge)

end Codex2Lark.Lib
