import Mathlib.Data.Fintype.Card
import Mathlib.Logic.Relation
import UiTree.Proofs.Tree.Links
set_option autoImplicit false

/-!
The way up from a node. Where parents have a lower rank than their children, no way up meets a node
twice, so it is shorter than the table, and `contains` decides whether one node lies above another.
-/

namespace UiTree.Tree

open Relation

def Under (t : Tree) (c p : NodeId) : Prop := t.parent c = some p

/-- The node that is met after so many steps up. -/
def up (t : Tree) : Nat → NodeId → Option NodeId
  | 0, n => some n
  | k + 1, n => (t.parent n).bind (t.up k)

theorem up_succ_eq_some {t : Tree} {k : Nat} {n a : NodeId} :
    t.up (k + 1) n = some a ↔ ∃ p, t.parent n = some p ∧ t.up k p = some a := by
  simp [up, Option.bind_eq_some_iff]

theorem up_add {t : Tree} {j k : Nat} {n m a : NodeId} (hj : t.up j n = some m)
    (hk : t.up k m = some a) : t.up (j + k) n = some a := by
  induction j generalizing n with
  | zero =>
    cases hj
    simpa using hk
  | succ j ih =>
    obtain ⟨p, hp, hj⟩ := up_succ_eq_some.1 hj
    rw [Nat.succ_add]
    exact up_succ_eq_some.2 ⟨p, hp, ih hj⟩

theorem up_split {t : Tree} {j k : Nat} {n a : NodeId} (h : t.up (j + k) n = some a) :
    ∃ m, t.up j n = some m ∧ t.up k m = some a := by
  induction j generalizing n with
  | zero => exact ⟨n, rfl, by simpa using h⟩
  | succ j ih =>
    rw [Nat.succ_add] at h
    obtain ⟨p, hp, h⟩ := up_succ_eq_some.1 h
    obtain ⟨m, hj, hk⟩ := ih h
    exact ⟨m, up_succ_eq_some.2 ⟨p, hp, hj⟩, hk⟩

theorem reflTransGen_under_iff {t : Tree} {n a : NodeId} :
    ReflTransGen t.Under n a ↔ ∃ k, t.up k n = some a := by
  constructor
  · intro h
    induction h using ReflTransGen.head_induction_on with
    | refl => exact ⟨0, rfl⟩
    | head hp _ ih =>
      obtain ⟨k, hk⟩ := ih
      exact ⟨k + 1, up_succ_eq_some.2 ⟨_, hp, hk⟩⟩
  · rintro ⟨k, hk⟩
    induction k generalizing n with
    | zero =>
      cases hk
      exact .refl
    | succ k ih =>
      obtain ⟨p, hp, hk⟩ := up_succ_eq_some.1 hk
      exact .head hp (ih hk)

theorem meets_iff {t : Tree} {a : NodeId} {fuel : Nat} {n : NodeId} :
    t.meets a fuel n = true ↔ ∃ k < fuel, t.up k n = some a := by
  induction fuel generalizing n with
  | zero => simp [meets]
  | succ fuel ih =>
    have step : t.meets a (fuel + 1) n = true ↔ n = a ∨ ∃ p, t.parent n = some p ∧
        t.meets a fuel p = true := by
      simp only [meets, Bool.or_eq_true, beq_iff_eq]
      cases t.parent n <;> simp
    rw [step]
    constructor
    · rintro (rfl | ⟨p, hp, hm⟩)
      · exact ⟨0, by omega, rfl⟩
      · obtain ⟨k, hk, hu⟩ := ih.1 hm
        exact ⟨k + 1, by omega, up_succ_eq_some.2 ⟨p, hp, hu⟩⟩
    · rintro ⟨k, hk, hu⟩
      cases k with
      | zero =>
        cases hu
        exact .inl rfl
      | succ k =>
        obtain ⟨p, hp, hu⟩ := up_succ_eq_some.1 hu
        exact .inr ⟨p, hp, ih.2 ⟨k, by omega, hu⟩⟩

/-- Every node has a higher rank than its parent. -/
def Ranked (t : Tree) (rank : NodeId → Nat) : Prop := ∀ c p, t.parent c = some p → rank p < rank c

theorem Ranked.up_le {t : Tree} {rank : NodeId → Nat} (h : t.Ranked rank) {k : Nat} {n a : NodeId}
    (hu : t.up k n = some a) : rank a + k ≤ rank n := by
  induction k generalizing n with
  | zero =>
    cases hu
    exact Nat.le_refl _
  | succ k ih =>
    obtain ⟨p, hp, hu⟩ := up_succ_eq_some.1 hu
    have := h n p hp
    have := ih hu
    omega

theorem Ranked.not_above_self {t : Tree} {rank : NodeId → Nat} (h : t.Ranked rank) (n : NodeId) :
    ¬ TransGen t.Under n n := by
  intro hn
  obtain ⟨p, hp, hr⟩ := TransGen.head'_iff.1 hn
  obtain ⟨k, hk⟩ := reflTransGen_under_iff.1 hr
  have := h n p hp
  have := h.up_le hk
  omega

/-- Going further up never leads to a node that was met before. -/
theorem Ranked.up_ne_of_lt {t : Tree} {rank : NodeId → Nat} (h : t.Ranked rank) {i j : Nat}
    {n a : NodeId} (hi : t.up i n = some a) (hj : t.up j n = some a) : ¬ i < j := by
  intro hlt
  obtain ⟨d, rfl⟩ := Nat.exists_eq_add_of_lt hlt
  rw [Nat.add_assoc] at hj
  obtain ⟨m, hm, hd⟩ := up_split hj
  rw [hi] at hm
  cases hm
  have := h.up_le hd
  omega

/-- The nodes on a way up are different nodes of the table, so there are no more steps than
nodes. -/
theorem Ranked.up_lt_size {t : Tree} {rank : NodeId → Nat} (h : t.Ranked rank)
    (hs : ∀ c p, t.parent c = some p → p < t.size) {k : Nat} {n a : NodeId} (hn : n < t.size)
    (hu : t.up k n = some a) : k < t.size := by
  have hsome : ∀ i : Fin (k + 1), ∃ m : Fin t.size, t.up i n = some m.1 := by
    intro i
    obtain ⟨d, hd⟩ := Nat.exists_eq_add_of_le (Nat.lt_succ_iff.1 i.2)
    rw [hd] at hu
    obtain ⟨m, hm, -⟩ := up_split hu
    refine ⟨⟨m, ?_⟩, hm⟩
    cases hi : i.1 with
    | zero =>
      rw [hi] at hm
      cases hm
      exact hn
    | succ j =>
      rw [hi] at hm
      obtain ⟨q, -, hq⟩ := up_split (j := j) (k := 1) hm
      obtain ⟨p, hp, hu⟩ := up_succ_eq_some.1 hq
      cases hu
      exact hs q m hp
  choose f hf using hsome
  have hinj : Function.Injective f := by
    intro i j hij
    have hi := hf i
    rw [hij] at hi
    have hlt := h.up_ne_of_lt hi (hf j)
    have hgt := h.up_ne_of_lt (hf j) hi
    exact Fin.ext (by omega)
  have hcard := Fintype.card_le_of_injective f hinj
  simp only [Fintype.card_fin] at hcard
  omega

end UiTree.Tree
