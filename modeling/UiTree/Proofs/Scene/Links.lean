import UiTree.Proofs.Course
import UiTree.Proofs.Tree.WellFormed
set_option autoImplicit false

/-!
The links of the tree under the operations of a scene. Building a host element writes links by
appending only; binding refs, settling a component call and collecting notices write none.
-/

namespace UiTree.Scene

open UiTree.Tree (SameLinks WellFormed)

@[simp] theorem tree_bindIfAsked (s : Scene) (request : Option RefRequest) (e : Element) :
    (s.bindIfAsked request e).tree = s.tree := by
  cases request <;> rfl

@[simp] theorem size_addNode (s : Scene) (kind : Kind) :
    (s.addNode kind).2.tree.size = s.tree.size + 1 :=
  Tree.size_add s.tree kind

theorem lt_size_addNode (s : Scene) (kind : Kind) : s.tree.size < (s.addNode kind).2.tree.size := by
  rw [size_addNode]
  exact Nat.lt_succ_self _

@[simp] theorem tree_offerMethod (s : Scene) (id : SinkId) (name : String) (c : Closure) :
    (s.offerMethod id name c).tree = s.tree := by
  unfold offerMethod
  split <;> rfl

@[simp] theorem tree_appendAll (s : Scene) (p : NodeId) (cs : List NodeId) :
    (s.appendAll p cs).2.tree = (s.tree.appendAll p cs).2 := rfl

theorem sameLinks_applyEntry (events : EventSet) (n : NodeId) (s : Scene) (entry : String × Value) :
    SameLinks s.tree (s.applyEntry events n entry).tree := by
  unfold applyEntry
  split
  · exact .refl _
  · split
    · exact .modify rfl rfl rfl
    · exact .modify rfl rfl rfl

theorem sameLinks_applyEntries (events : EventSet) (n : NodeId) (entries : List (String × Value))
    (s : Scene) : SameLinks s.tree (entries.foldl (applyEntry events n) s).tree := by
  induction entries generalizing s with
  | nil => exact .refl _
  | cons entry rest ih => exact (sameLinks_applyEntry events n s entry).trans (ih _)

theorem sameLinks_furnish (s : Scene) (events : EventSet) (tag : String) (config : Config)
    (request : Option RefRequest) :
    SameLinks (s.addNode (.element tag)).2.tree (s.furnish events tag config request).tree := by
  have := sameLinks_applyEntries events s.tree.size config.entries
    ((s.addNode (.element tag)).2.bindIfAsked request (.node s.tree.size))
  rwa [tree_bindIfAsked] at this

theorem sameLinks_pushNotice (s : Scene) (e : Element) (n : Notice) :
    SameLinks s.tree (s.pushNotice e n).tree := by
  cases e with
  | node id => exact .modify rfl rfl rfl
  | fragment slot items => exact .refl _

theorem sameLinks_pushNotices (e : Element) (notices : List Notice) (s : Scene) :
    SameLinks s.tree (notices.foldl (·.pushNotice e) s).tree := by
  induction notices generalizing s with
  | nil => exact .refl _
  | cons n rest ih => exact (sameLinks_pushNotice s e n).trans (ih _)

theorem sameLinks_moveNotice (s : Scene) (cur : SinkId) (result : Element) :
    SameLinks s.tree (s.moveNotice cur result).tree := by
  unfold moveNotice
  split
  · exact sameLinks_pushNotice (s.modifySink cur _) result _
  · exact .refl _

theorem sameLinks_attachMethod (n : NodeId) (methods : List (String × Closure)) (s : Scene) :
    SameLinks s.tree (methods.foldl (attachMethod n) s).tree := by
  induction methods generalizing s with
  | nil => exact .refl _
  | cons m rest ih =>
    have hone : SameLinks s.tree (s.attachMethod n m).tree := .modify rfl rfl rfl
    exact hone.trans (ih _)

theorem sameLinks_attachMethods (s : Scene) (name : Option String) (cur : SinkId)
    (result : Element) : SameLinks s.tree (s.attachMethods name cur result).2.tree := by
  unfold attachMethods
  simp only
  split
  · exact .refl _
  · cases result with
    | fragment slot items => exact .refl _
    | node n => exact sameLinks_attachMethod n _ (s.modifySink cur _)

theorem sameLinks_settle (s : Scene) (name : Option String) (request : Option RefRequest)
    (cur : SinkId) (result : Element) :
    SameLinks s.tree (s.settle name request cur result).2.tree := by
  have hmove := sameLinks_moveNotice (s.bindIfAsked request result) cur result
  rw [tree_bindIfAsked] at hmove
  exact hmove.trans (sameLinks_attachMethods _ name cur result)

theorem sameLinks_takeFromNodes (nodes : List NodeId) (s : Scene) :
    SameLinks s.tree (s.takeFromNodes nodes).2.tree := by
  induction nodes generalizing s with
  | nil => exact .refl _
  | cons n rest ih =>
    have hone : SameLinks s.tree (s.modifyNode n (.setPending [])).tree := .modify rfl rfl rfl
    exact hone.trans (ih _)

theorem tree_takeFromSlots (slots : List SlotId) (s : Scene) :
    (s.takeFromSlots slots).2.tree = s.tree := by
  induction slots generalizing s with
  | nil => rfl
  | cons id rest ih => exact ih _

theorem sameLinks_collect (s : Scene) (result : Element) (nodes : List NodeId)
    (slots : List SlotId) : SameLinks s.tree (s.collect result nodes slots).2.tree := by
  unfold collect
  simp only [tree_takeFromSlots]
  exact sameLinks_takeFromNodes _ s

theorem sameLinks_announce (s : Scene) (result : Element) (notices : List Notice) :
    SameLinks s.tree (s.announce result notices).tree := by
  unfold announce
  split
  · exact .refl _
  · cases result with
    | node parent => exact .refl _
    | fragment slot items => exact sameLinks_pushNotices _ notices (s.message _ _)

theorem wellFormed_append {s : Scene} (h : WellFormed s.tree) (p : NodeId) {c : NodeId}
    (hc : c < s.tree.size) : WellFormed (s.append p c).2.tree := by
  unfold append
  cases ha : s.tree.append p c with
  | error e => exact h
  | ok t => exact h.append hc ha

theorem wellFormed_renderInto {s : Scene} (h : WellFormed s.tree) (root : NodeId) {e : Element}
    (he : ∀ n ∈ e.nodes, n < s.tree.size) : WellFormed (s.renderInto root e).2.tree :=
  Tree.WellFormed.appendAll h root he

theorem wellFormed_render {s : Scene} (h : WellFormed s.tree) (doc : Document) {e : Element}
    (id : String) (he : ∀ n ∈ e.nodes, n < s.tree.size) :
    WellFormed (s.render doc e id).2.tree := by
  unfold render
  split
  · exact wellFormed_renderInto h _ he
  · exact h

theorem wellFormed_build {s : Scene} (h : WellFormed s.tree) (events : EventSet) (tag : String)
    (config : Config) {nodes : List NodeId} (hn : ∀ n ∈ nodes, n < s.tree.size) :
    WellFormed (s.build events tag config nodes).2.tree := by
  have hadd : WellFormed (s.addNode (.element tag)).2.tree := h.add _
  rw [build_eq]
  cases config.refRequest with
  | error e => exact hadd
  | ok request =>
    have hlinks := sameLinks_furnish s events tag config request
    refine (hadd.sameLinks hlinks).appendAll s.tree.size fun n hm => ?_
    rw [hlinks.size, size_addNode]
    exact Nat.lt_succ_of_lt (hn n hm)

end UiTree.Scene
