import UiTree.Proofs.Tree.Rows
import UiTree.Tree
set_option autoImplicit false

/-!
Walks down the tree. Text, markup and the list in document order are one recursion with different
answers: a node is answered from what it carries and from the answers of its children. With more
fuel than there are levels below a node the answer depends neither on the fuel nor on anything that
is not at or below the node.
-/

namespace UiTree.Tree

open Relation

def Lists (t : Tree) (p c : NodeId) : Prop := c ∈ t.children p

instance (t : Tree) (p c : NodeId) : Decidable (t.Lists p c) :=
  inferInstanceAs (Decidable (c ∈ t.children p))

/-- The recursion of all walks. Where the fuel is used up the answer is `cut`. -/
def walk {α : Type} (cut : α) (answer : NodeId → NodeData → List α → α) (t : Tree) : Nat →
    NodeId → α
  | 0, _ => cut
  | fuel + 1, n => answer n (t.get n) ((t.children n).map (walk cut answer t fuel))

/-- There are no more levels at and below the node than the fuel. -/
def Shallow (t : Tree) : Nat → NodeId → Prop
  | 0, _ => False
  | fuel + 1, n => ∀ c ∈ t.children n, t.Shallow fuel c

/-- At and below the node all is the same in both trees, but perhaps for parents. -/
def SameBelow (t t' : Tree) (n : NodeId) : Prop :=
  ∀ x, ReflTransGen t.Lists n x → (t'.get x).setParent none = (t.get x).setParent none

namespace SameBelow

variable {t t' : Tree} {n : NodeId}

theorem refl (t : Tree) (n : NodeId) : SameBelow t t n := fun _ _ => rfl

theorem children (h : SameBelow t t' n) : t'.children n = t.children n := by
  have hrow := congrArg NodeData.children (h n .refl)
  exact hrow

theorem child (h : SameBelow t t' n) {c : NodeId} (hc : c ∈ t.children n) : SameBelow t t' c :=
  fun x hx => h x (.head hc hx)

end SameBelow

theorem Shallow.mono {t : Tree} {fuel fuel' : Nat} {n : NodeId} (h : t.Shallow fuel n)
    (hle : fuel ≤ fuel') : t.Shallow fuel' n := by
  induction fuel generalizing fuel' n with
  | zero => exact h.elim
  | succ fuel ih =>
    cases fuel' with
    | zero => omega
    | succ fuel' => exact fun c hc => ih (h c hc) (by omega)

/-- A way down is a way up taken backwards, so where no way up to the node is as long as the fuel,
neither is any way down from it. -/
theorem WellFormed.shallow_of_up {t : Tree} (h : WellFormed t) {fuel : Nat} {n : NodeId}
    (hup : ∀ k c, t.up k c = some n → k < fuel) : t.Shallow fuel n := by
  induction fuel generalizing n with
  | zero => exact absurd (hup 0 n rfl) (Nat.lt_irrefl 0)
  | succ fuel ih =>
    intro c hc
    refine ih fun k d hd => ?_
    have hstep : t.up 1 c = some n := up_succ_eq_some.2 ⟨n, (h.mem_children_iff n c).1 hc, rfl⟩
    have := hup (k + 1) d (up_add hd hstep)
    omega

theorem WellFormed.shallow {t : Tree} (h : WellFormed t) {n : NodeId} (hn : n < t.size) :
    t.Shallow t.size n :=
  h.shallow_of_up fun _ _ hk => h.up_lt_size hn hk

section

variable {α : Type} {cut : α} {answer : NodeId → NodeData → List α → α} {t t' : Tree} {n : NodeId}

/-- The answer of a walk is decided at and below its node. -/
theorem walk_congr (hanswer : ∀ x d, answer x (d.setParent none) = answer x d) {fuel fuel' : Nat}
    (hsame : SameBelow t t' n) (hf : t.Shallow fuel n) (hf' : t.Shallow fuel' n) :
    walk cut answer t' fuel' n = walk cut answer t fuel n := by
  induction fuel generalizing fuel' n with
  | zero => exact hf.elim
  | succ fuel ih =>
    cases fuel' with
    | zero => exact hf'.elim
    | succ fuel' =>
      have hbelow : (t.children n).map (walk cut answer t' fuel') =
          (t.children n).map (walk cut answer t fuel) :=
        List.map_congr_left fun c hc => ih (hsame.child hc) (hf c hc) (hf' c hc)
      rw [walk, walk, hsame.children, hbelow, ← hanswer n (t'.get n), hsame n .refl, hanswer]

theorem WellFormed.walk_eq (h : WellFormed t)
    (hanswer : ∀ x d, answer x (d.setParent none) = answer x d) (hn : n < t.size) :
    walk cut answer t t.size n =
      answer n (t.get n) ((t.children n).map (walk cut answer t t.size)) := by
  have hdeep := h.shallow hn
  obtain ⟨fuel, hfuel⟩ : ∃ fuel, t.size = fuel + 1 :=
    Nat.exists_eq_succ_of_ne_zero (Nat.ne_zero_of_lt hn)
  have hbelow : (t.children n).map (walk cut answer t fuel) =
      (t.children n).map (walk cut answer t t.size) := by
    refine List.map_congr_left fun c hc => (walk_congr hanswer (.refl t c) ?_ ?_).symm
    · rw [hfuel] at hdeep
      exact hdeep c hc
    · exact h.shallow (h.child_lt_size hc)
  calc walk cut answer t t.size n = walk cut answer t (fuel + 1) n := by rw [hfuel]
    _ = answer n (t.get n) ((t.children n).map (walk cut answer t t.size)) := by rw [walk, hbelow]

theorem WellFormed.walk_size_congr (h : WellFormed t)
    (hanswer : ∀ x d, answer x (d.setParent none) = answer x d) (hsize : t.size ≤ t'.size)
    (hn : n < t.size) (hsame : SameBelow t t' n) :
    walk cut answer t' t'.size n = walk cut answer t t.size n :=
  walk_congr hanswer hsame (h.shallow hn) ((h.shallow hn).mono hsize)

end

theorem lt_size_of_element {t : Tree} {n : NodeId} {tag : String}
    (hk : (t.get n).kind = .element tag) : n < t.size :=
  lt_size_of_isText_eq_false (by simp [NodeData.isText, hk])

def textAnswer (_ : NodeId) (d : NodeData) (below : List (List Char)) : List Char :=
  match d.kind with
  | .text content => content.toList
  | .element _ => below.flatten

def markupAnswer (_ : NodeId) (d : NodeData) (below : List (List Char)) : List Char :=
  match d.kind with
  | .text content => Text.escapeText content.toList
  | .element tag =>
    '<' :: tag.toList ++ d.attributes.entries.flatMap attributeMarkup ++ '>' ::
      (below.flatten ++ '<' :: '/' :: tag.toList ++ ['>'])

theorem textFrom_eq_walk (t : Tree) (fuel : Nat) (n : NodeId) :
    t.textFrom fuel n = walk [] textAnswer t fuel n := by
  induction fuel generalizing n with
  | zero => rfl
  | succ fuel ih =>
    cases hkind : (t.get n).kind with
    | text content => simp only [textFrom, walk, textAnswer, hkind]
    | element tag => simp only [textFrom, walk, textAnswer, hkind, ← List.flatMap_def, funext ih]

theorem markupFrom_eq_walk (t : Tree) (fuel : Nat) (n : NodeId) :
    t.markupFrom fuel n = walk [] markupAnswer t fuel n := by
  induction fuel generalizing n with
  | zero => rfl
  | succ fuel ih =>
    cases hkind : (t.get n).kind with
    | text content => simp only [markupFrom, walk, markupAnswer, hkind]
    | element tag =>
      simp only [markupFrom, walk, markupAnswer, hkind, ← List.flatMap_def, funext ih]

namespace WellFormed

variable {t t' : Tree} {n : NodeId}

theorem textContent_congr (h : WellFormed t) (hsize : t.size ≤ t'.size) (hn : n < t.size)
    (hsame : SameBelow t t' n) : t'.textContent n = t.textContent n := by
  rw [textContent, textContent, textFrom_eq_walk, textFrom_eq_walk,
    h.walk_size_congr (fun _ _ => rfl) hsize hn hsame]

theorem markup_congr (h : WellFormed t) (hsize : t.size ≤ t'.size) (hn : n < t.size)
    (hsame : SameBelow t t' n) : t'.markup n = t.markup n := by
  rw [markup, markup, markupFrom_eq_walk, markupFrom_eq_walk,
    h.walk_size_congr (fun _ _ => rfl) hsize hn hsame]

theorem textContent_element (h : WellFormed t) {tag : String} (hk : (t.get n).kind = .element tag) :
    t.textContent n = String.ofList ((t.children n).flatMap fun c => (t.textContent c).toList) := by
  have hbelow : (fun c => (t.textContent c).toList) = walk [] textAnswer t t.size :=
    funext fun c => by rw [textContent, String.toList_ofList, textFrom_eq_walk]
  rw [textContent, textFrom_eq_walk, h.walk_eq (fun _ _ => rfl) (lt_size_of_element hk), textAnswer,
    hk, hbelow, List.flatMap_def]

theorem textContent_text (h : WellFormed t) (hn : n < t.size) {content : String}
    (hk : (t.get n).kind = .text content) : t.textContent n = content := by
  rw [textContent, textFrom_eq_walk, h.walk_eq (fun _ _ => rfl) hn, textAnswer, hk,
    String.ofList_toList]

end WellFormed

end UiTree.Tree
