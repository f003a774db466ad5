import UiTree.Proofs.Append
set_option autoImplicit false

/-!
The walks through the tree end. Without fuel they are recursions along two relations, from a node to
its children and from a node to its parent. In every moment neither has an endless way, so the
recursions define functions, and the walks with fuel for as many steps as there are nodes give the
values of these functions; more fuel changes nothing.
-/

namespace UiTree

namespace Tree

variable {t : Tree}

/-- The recursion of all walks down, in a tree where every way down ends. -/
def descend {α : Type} (t : Tree) (down : WellFounded fun c p => t.Lists p c)
    (answer : NodeId → NodeData → List α → α) (n : NodeId) : α :=
  answer n (t.get n) ((t.children n).attach.map fun c => t.descend down answer c.1)
termination_by down.wrap n
decreasing_by exact c.2

theorem descend_eq {α : Type} (down : WellFounded fun c p => t.Lists p c)
    (answer : NodeId → NodeData → List α → α) (n : NodeId) :
    t.descend down answer n = answer n (t.get n) ((t.children n).map (t.descend down answer)) := by
  rw [descend, List.attach_map_val]

/-- The loop of `contains`, in a tree where every way up ends. -/
def climb (t : Tree) (up : WellFounded fun p c => t.Under c p) (a n : NodeId) : Bool :=
  n == a || (t.parent n).attach.any fun p => t.climb up a p.1
termination_by up.wrap n
decreasing_by exact p.2

theorem climb_eq (up : WellFounded fun p c => t.Under c p) (a n : NodeId) :
    t.climb up a n = (n == a || (t.parent n).any (t.climb up a)) := by
  rw [climb]
  cases t.parent n <;> rfl

theorem Shallow.acc {fuel : Nat} {n : NodeId} (h : t.Shallow fuel n) :
    Acc (fun c p => t.Lists p c) n := by
  induction fuel generalizing n with
  | zero => exact h.elim
  | succ fuel ih => exact .intro n fun c hc => ih (h c hc)

namespace WellFormed

theorem wellFounded_lists (h : WellFormed t) : WellFounded fun c p => t.Lists p c := by
  refine ⟨fun n => .intro n fun c hc => ?_⟩
  exact (h.shallow (h.child_lt_size hc)).acc

theorem wellFounded_under (h : WellFormed t) : WellFounded fun p c => t.Under c p := by
  obtain ⟨rank, hr⟩ := h.ranked
  exact Subrelation.wf (fun {p c} hp => hr c p hp) (measure rank).wf

theorem up_lt_size_of_lt (h : WellFormed t) {k : Nat} {n a : NodeId} (hn : n < t.size)
    (hu : t.up k n = some a) : k < t.size := by
  obtain ⟨rank, hr⟩ := h.ranked
  exact hr.up_lt_size (fun c p hc => h.parent_lt_size hc) hn hu

end WellFormed

theorem walk_eq_descend {α : Type} (down : WellFounded fun c p => t.Lists p c) (cut : α)
    (answer : NodeId → NodeData → List α → α) {fuel : Nat} {n : NodeId} (h : t.Shallow fuel n) :
    walk cut answer t fuel n = t.descend down answer n := by
  induction fuel generalizing n with
  | zero => exact h.elim
  | succ fuel ih =>
    have hbelow : (t.children n).map (walk cut answer t fuel) =
        (t.children n).map (t.descend down answer) :=
      List.map_congr_left fun c hc => ih (h c hc)
    rw [walk, hbelow, descend_eq]

theorem meets_eq_climb (up : WellFounded fun p c => t.Under c p) (a : NodeId) {fuel : Nat}
    {n : NodeId} (h : ∀ k m, t.up k n = some m → k < fuel) : t.meets a fuel n = t.climb up a n := by
  induction fuel generalizing n with
  | zero => exact absurd (h 0 n rfl) (Nat.lt_irrefl 0)
  | succ fuel ih =>
    rw [climb_eq, meets]
    cases hp : t.parent n with
    | none => rfl
    | some p =>
      refine congrArg (n == a || ·) (ih fun k m hk => ?_)
      have := h (k + 1) m (up_succ_eq_some.2 ⟨p, hp, hk⟩)
      omega

def findAnswer (id : String) (n : NodeId) (d : NodeData) (below : List (Option NodeId)) :
    Option NodeId :=
  if d.attributes.get? "id" = some id then some n else below.findSome? fun found => found

theorem findFrom_eq_walk (t : Tree) (id : String) (fuel : Nat) (n : NodeId) :
    t.findFrom id fuel n = walk none (findAnswer id) t fuel n := by
  induction fuel generalizing n with
  | zero => rfl
  | succ fuel ih =>
    rw [findFrom, walk, findAnswer, List.findSome?_map, funext ih]
    rfl

end Tree

namespace Course

/-- Of every moment: no way down and no way up is endless, so recursions along them define
functions. Text, markup, the search by id and `contains` are these functions: the fuel they get, a
step for each node of the table, is enough, and with more fuel the walks give the same. -/
theorem Reachable.walks_end {m : Moment} (hm : Reachable m) :
    let t := m.scene.tree
    ∃ (down : WellFounded fun c p => t.Lists p c) (up : WellFounded fun p c => t.Under c p), ∀ n :
      Fin t.size, t.textContent n = String.ofList (t.descend down Tree.textAnswer n) ∧
      t.markup n = String.ofList (t.descend down Tree.markupAnswer n) ∧
      (∀ id, t.findById n id = t.descend down (Tree.findAnswer id) n) ∧
      (∀ a, t.contains a n = t.climb up a n) ∧
      ∀ fuel, t.size ≤ fuel → t.textFrom fuel n = t.textFrom t.size n ∧
      t.markupFrom fuel n = t.markupFrom t.size n ∧
        (∀ id, t.findFrom id fuel n = t.findFrom id t.size n) ∧
        ∀ a, t.meets a fuel n = t.meets a t.size n := by
  have h := hm.wellFormed
  intro t
  refine ⟨h.wellFounded_lists, h.wellFounded_under, fun n => ?_⟩
  have hdown : ∀ fuel, t.size ≤ fuel → t.Shallow fuel n := fun fuel hf => (h.shallow n.2).mono hf
  have htext : ∀ fuel, t.size ≤ fuel →
      t.textFrom fuel n = t.descend h.wellFounded_lists Tree.textAnswer n :=
    fun fuel hf => (t.textFrom_eq_walk fuel n).trans (Tree.walk_eq_descend _ _ _ (hdown fuel hf))
  have hmarkup : ∀ fuel, t.size ≤ fuel →
      t.markupFrom fuel n = t.descend h.wellFounded_lists Tree.markupAnswer n :=
    fun fuel hf => (t.markupFrom_eq_walk fuel n).trans (Tree.walk_eq_descend _ _ _ (hdown fuel hf))
  have hfind : ∀ id fuel, t.size ≤ fuel →
      t.findFrom id fuel n = t.descend h.wellFounded_lists (Tree.findAnswer id) n :=
    fun id fuel hf =>
      (t.findFrom_eq_walk id fuel n).trans (Tree.walk_eq_descend _ _ _ (hdown fuel hf))
  have hmeets : ∀ a fuel, t.size ≤ fuel →
      t.meets a fuel n = t.climb h.wellFounded_under a n := fun a fuel hf =>
    Tree.meets_eq_climb _ a fun k x hk => Nat.lt_of_lt_of_le (h.up_lt_size_of_lt n.2 hk) hf
  have hle := Nat.le_refl t.size
  refine ⟨congrArg String.ofList (htext _ hle), congrArg String.ofList (hmarkup _ hle),
    fun id => hfind id _ hle, fun a => hmeets a _ hle,
    fun fuel hf => ⟨?_, ?_, fun id => ?_, fun a => ?_⟩⟩
  · rw [htext fuel hf, htext _ hle]
  · rw [hmarkup fuel hf, hmarkup _ hle]
  · rw [hfind id fuel hf, hfind id _ hle]
  · rw [hmeets a fuel hf, hmeets a _ hle]

/-- The first list has a text two levels below. Fuel for the four nodes finds it, fuel for a
thousand finds no more. -/
theorem Reachable.walks_end_of_twoLists : ∃ m, Reachable m ∧ m.scene.tree.size = 4 ∧
    m.scene.tree.textContent 0 = "a" ∧ m.scene.tree.textFrom 1000 0 = "a".toList ∧
    m.scene.tree.contains 0 2 = true ∧ m.scene.tree.meets 0 1000 2 = true := by
  obtain ⟨_, _, h⟩ := reachable_twoLists.walks_end
  obtain ⟨-, -, -, -, hlist⟩ := h ⟨0, by decide⟩
  obtain ⟨-, -, -, -, htext⟩ := h ⟨2, by decide⟩
  obtain ⟨hlong, -⟩ := hlist 1000 (by decide)
  obtain ⟨-, -, -, hhigh⟩ := htext 1000 (by decide)
  exact ⟨twoLists, reachable_twoLists, rfl, rfl, hlong.trans rfl, rfl, (hhigh 0).trans rfl⟩

end Course

end UiTree
