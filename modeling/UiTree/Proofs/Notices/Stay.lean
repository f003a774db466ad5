import UiTree.Proofs.Scene.Links
import UiTree.Proofs.Tree.Rows
set_option autoImplicit false

/-!
Operations that leave all notices where they wait: everything that makes, moves or changes nodes,
and rendering. An event moves no notice either, unless one of its listeners does.
-/

namespace UiTree

namespace Tree

def SamePending (t t' : Tree) : Prop := ∀ n, (t'.get n).pending = (t.get n).pending

namespace SamePending

theorem refl (t : Tree) : SamePending t t := fun _ => rfl

theorem trans {t t' t'' : Tree} (h : SamePending t t') (h' : SamePending t' t'') :
    SamePending t t'' :=
  fun n => (h' n).trans (h n)

theorem modify (t : Tree) (n : NodeId) (f : NodeData → NodeData)
    (hf : ∀ d, (f d).pending = d.pending) : SamePending t (t.modify n f) := by
  intro m
  rw [get_modify]
  split
  · exact hf _
  · rfl

theorem add (t : Tree) (kind : Kind) : SamePending t (t.add kind).2 := by
  intro m
  rw [get_add]
  split
  · rename_i h
    rw [t.get_of_size_le (Nat.le_of_eq h.symm)]
    rfl
  · rfl

theorem of_bare {t t' : Tree} (h : SameBare t t') : SamePending t t' := by
  intro n
  change (t'.get n).bare.pending = (t.get n).bare.pending
  rw [h n]

theorem clear (t : Tree) (n : NodeId) : SamePending t (t.clear n) := of_bare (.clear t n)

theorem setTextContent (t : Tree) (n : NodeId) (text : String) :
    SamePending t (t.setTextContent n text) := by
  unfold Tree.setTextContent
  split
  · exact modify t n _ fun _ => rfl
  · simp only
    split
    · exact clear t n
    · exact (clear t n).trans ((add _ (.text text)).trans (of_bare (.attach _ n _)))

theorem prune (t : Tree) (kept : Array Bool) : SamePending t (t.prune kept) := by
  intro n
  by_cases hn : n < t.nodes.size
  · simp only [get, Tree.prune, Array.getD_eq_getD_getElem?, Array.getElem?_mapIdx]
    simp only [hn, getElem?_pos, Option.map_some, Option.getD_some]
    split <;> rfl
  · have hn := Nat.le_of_not_lt hn
    rw [t.get_of_size_le hn, get_of_size_le _ (by rw [size_prune]; exact hn)]

end SamePending

end Tree

namespace Scene

open UiTree.Tree (SamePending)

/-- The same notices wait on every node and in every slot, and every sink holds the notice that it
held. -/
structure SameNotices (s s' : Scene) : Prop where
  pending : SamePending s.tree s'.tree
  slot : ∀ id, s'.slot id = s.slot id
  notice : ∀ id, (s'.sink id).notice = (s.sink id).notice
  serials : s.serials ≤ s'.serials

namespace SameNotices

theorem refl (s : Scene) : SameNotices s s := ⟨.refl _, fun _ => rfl, fun _ => rfl, Nat.le_refl _⟩

theorem trans {s s' s'' : Scene} (h : SameNotices s s') (h' : SameNotices s' s'') :
    SameNotices s s'' :=
  ⟨h.pending.trans h'.pending, fun id => (h'.slot id).trans (h.slot id),
    fun id => (h'.notice id).trans (h.notice id), Nat.le_trans h.serials h'.serials⟩

theorem tree {s : Scene} {t : Tree} (h : SamePending s.tree t) :
    SameNotices s { s with tree := t } :=
  ⟨h, fun _ => rfl, fun _ => rfl, Nat.le_refl _⟩

theorem of_eq {s s' : Scene} (ht : s'.tree = s.tree) (hl : s'.slots = s.slots)
    (hk : s'.sinks = s.sinks) (hs : s.serials ≤ s'.serials) : SameNotices s s' := by
  refine ⟨?_, fun id => ?_, fun id => ?_, hs⟩
  · rw [ht]
    exact .refl _
  · simp only [Scene.slot, hl]
  · simp only [Scene.sink, hk]

theorem foldl {α : Type} {f : Scene → α → Scene} (hf : ∀ (s : Scene) (a : α), SameNotices s (f s a))
    (as : List α) (s : Scene) : SameNotices s (as.foldl f s) := by
  induction as generalizing s with
  | nil => exact refl s
  | cons a rest ih => exact (hf s a).trans (ih _)

end SameNotices

theorem sameNotices_addNode (s : Scene) (kind : Kind) : SameNotices s (s.addNode kind).2 :=
  .tree (t := (s.tree.add kind).2) (.add s.tree kind)

theorem sameNotices_addSlot (s : Scene) : SameNotices s s.addSlot.2 where
  pending := .refl _
  slot id := by
    simp only [slot, addSlot, Array.getD_eq_getD_getElem?, Array.getElem?_push]
    split
    · rename_i h
      simp [h]
    · rfl
  notice _ := rfl
  serials := Nat.le_refl _

theorem sameNotices_addSink (s : Scene) : SameNotices s s.addSink.2 where
  pending := .refl _
  slot _ := rfl
  notice id := by
    simp only [sink, addSink, Array.getD_eq_getD_getElem?, Array.getElem?_push]
    split
    · rename_i h
      simp [h]
    · rfl
  serials := Nat.le_refl _

theorem sameNotices_modifyNode (s : Scene) (n : NodeId) (f : NodeData → NodeData)
    (hf : ∀ d, (f d).pending = d.pending) : SameNotices s (s.modifyNode n f) :=
  .tree (.modify s.tree n f hf)

theorem sink_modifySink (s : Scene) (cur id : SinkId) (f : Sink → Sink) :
    (s.modifySink cur f).sink id = if id = cur ∧
    id < s.sinks.size then f (s.sink id) else s.sink id := by
  simp only [sink, modifySink, Array.getD_eq_getD_getElem?, Array.getElem?_modify]
  by_cases h : cur = id
  · subst h
    by_cases hc : cur < s.sinks.size <;> simp [hc]
  · simp [h, Ne.symm h]

theorem sameNotices_modifySink (s : Scene) (cur : SinkId) (f : Sink → Sink)
    (hf : ∀ k, (f k).notice = k.notice) : SameNotices s (s.modifySink cur f) where
  pending := .refl _
  slot _ := rfl
  notice id := by
    rw [sink_modifySink]
    split
    · exact hf _
    · rfl
  serials := Nat.le_refl _

theorem sameNotices_message (s : Scene) (level : Level) (text : String) :
    SameNotices s (s.message level text) :=
  .of_eq rfl rfl rfl (Nat.le_refl _)

theorem sameNotices_append (s : Scene) (p c : NodeId) : SameNotices s (s.append p c).2 := by
  unfold append
  cases ha : s.tree.append p c with
  | error e => exact .refl s
  | ok t => exact .tree (.of_bare (.append ha))

theorem sameNotices_appendAll (s : Scene) (p : NodeId) (cs : List NodeId) :
    SameNotices s (s.appendAll p cs).2 :=
  .tree (.of_bare (.appendAll p cs s.tree))

theorem sameNotices_detach (s : Scene) (n : NodeId) :
    SameNotices s { s with tree := s.tree.detach n } :=
  .tree (.of_bare (.detach s.tree n))

theorem sameNotices_setTextContent (s : Scene) (n : NodeId) (text : String) :
    SameNotices s (s.setTextContent n text) :=
  .tree (.setTextContent s.tree n text)

theorem sameNotices_renderInto (s : Scene) (root : NodeId) (e : Element) :
    SameNotices s (s.renderInto root e).2 :=
  (s.sameNotices_message _ _).trans (sameNotices_appendAll _ root e.nodes)

theorem sameNotices_render (s : Scene) (doc : Document) (e : Element) (id : String) :
    SameNotices s (s.render doc e id).2 := by
  unfold render
  split
  · exact s.sameNotices_renderInto _ e
  · exact .refl s

theorem sameNotices_bindIfAsked (s : Scene) (request : Option RefRequest) (e : Element) :
    SameNotices s (s.bindIfAsked request e) := by
  cases request with
  | none => exact .refl s
  | some r => exact .of_eq rfl rfl rfl (Nat.le_refl _)

theorem sameNotices_enter (s : Scene) (c : Component) (nodes : List NodeId) :
    SameNotices s (s.enter c nodes) :=
  (s.sameNotices_message _ _).trans
    ((sameNotices_addSink _).trans (.of_eq rfl rfl rfl (Nat.le_refl _)))

theorem sameNotices_furnish (s : Scene) (events : EventSet) (tag : String) (config : Config)
    (request : Option RefRequest) : SameNotices s (s.furnish events tag config request) := by
  refine (s.sameNotices_addNode (.element tag)).trans
    ((sameNotices_bindIfAsked _ request _).trans (.foldl ?_ _ _))
  intro s entry
  unfold applyEntry
  split
  · exact .refl s
  · split
    · exact s.sameNotices_modifyNode _ _ fun _ => rfl
    · exact s.sameNotices_modifyNode _ _ fun _ => rfl

theorem sameNotices_build (s : Scene) (events : EventSet) (tag : String) (config : Config)
    (nodes : List NodeId) : SameNotices s (s.build events tag config nodes).2 := by
  rw [build_eq]
  cases config.refRequest with
  | error e => exact s.sameNotices_addNode _
  | ok request =>
    exact (s.sameNotices_furnish events tag config request).trans (sameNotices_appendAll _ _ nodes)

theorem sameNotices_of_build {s s' : Scene} {events : EventSet} {name : String} {config : Config}
    {nodes : List NodeId} {made : Except Error NodeId}
    (hb : (s.announceTag name nodes).build events name config nodes = (made, s')) :
    SameNotices s s' := by
  have hbuild := (s.announceTag name nodes).sameNotices_build events name config nodes
  rw [hb] at hbuild
  exact (s.sameNotices_message _ _).trans hbuild

theorem sameNotices_attachMethods (s : Scene) (name : Option String) (cur : SinkId)
    (result : Element) : SameNotices s (s.attachMethods name cur result).2 := by
  unfold attachMethods
  simp only
  split
  · exact .refl s
  · cases result with
    | fragment slot items => exact .refl s
    | node n =>
      refine (s.sameNotices_modifySink cur (fun k => { k with methods := .empty })
        fun _ => rfl).trans (.foldl ?_ _ _)
      intro s m
      exact (s.sameNotices_message _ _).trans (sameNotices_modifyNode _ n _ fun _ => rfl)

def SameOffers (s s' : Scene) : Prop := s'.sinks = s.sinks ∧ s'.serials = s.serials

theorem SameOffers.trans {s s' s'' : Scene} (h : SameOffers s s') (h' : SameOffers s' s'') :
    SameOffers s s'' :=
  ⟨h'.1.trans h.1, h'.2.trans h.2⟩

theorem SameOffers.foldl {α : Type} {f : Scene → α → Scene}
    (hf : ∀ (s : Scene) (a : α), SameOffers s (f s a)) (as : List α) (s : Scene) :
    SameOffers s (as.foldl f s) := by
  induction as generalizing s with
  | nil => exact ⟨rfl, rfl⟩
  | cons a rest ih => exact (hf s a).trans (ih _)

theorem sameOffers_bindIfAsked (s : Scene) (request : Option RefRequest) (e : Element) :
    SameOffers s (s.bindIfAsked request e) := by
  cases request <;> exact ⟨rfl, rfl⟩

theorem sameOffers_furnish (s : Scene) (events : EventSet) (tag : String) (config : Config)
    (request : Option RefRequest) : SameOffers s (s.furnish events tag config request) := by
  have hadd : SameOffers s (s.addNode (.element tag)).2 := ⟨rfl, rfl⟩
  refine hadd.trans ((sameOffers_bindIfAsked _ request _).trans (.foldl ?_ _ _))
  intro s entry
  unfold applyEntry
  split
  · exact ⟨rfl, rfl⟩
  · split <;> exact ⟨rfl, rfl⟩

theorem sameOffers_build (s : Scene) (events : EventSet) (tag : String) (config : Config)
    (nodes : List NodeId) : SameOffers s (s.build events tag config nodes).2 := by
  rw [build_eq]
  cases config.refRequest with
  | error e => exact ⟨rfl, rfl⟩
  | ok request => exact s.sameOffers_furnish events tag config request

theorem sameOffers_takeFromNodes (nodes : List NodeId) (s : Scene) :
    SameOffers s (s.takeFromNodes nodes).2 := by
  induction nodes generalizing s with
  | nil => exact ⟨rfl, rfl⟩
  | cons n rest ih => exact ih (s.modifyNode n (.setPending []))

theorem sameOffers_takeFromSlots (slots : List SlotId) (s : Scene) :
    SameOffers s (s.takeFromSlots slots).2 := by
  induction slots generalizing s with
  | nil => exact ⟨rfl, rfl⟩
  | cons i rest ih => exact ih { s with slots := s.slots.setIfInBounds i [] }

theorem sameOffers_collect (s : Scene) (result : Element) (nodes : List NodeId)
    (slots : List SlotId) : SameOffers s (s.collect result nodes slots).2 :=
  (sameOffers_takeFromNodes _ s).trans (sameOffers_takeFromSlots slots _)

theorem sameOffers_announce (s : Scene) (result : Element) (notices : List Notice) :
    SameOffers s (s.announce result notices) := by
  unfold announce
  split
  · exact ⟨rfl, rfl⟩
  · cases result with
    | node parent => exact ⟨rfl, rfl⟩
    | fragment slot items =>
      have hpush : ∀ (s : Scene) (n : Notice),
          SameOffers s (s.pushNotice (.fragment slot items) n) :=
        fun s n => ⟨rfl, rfl⟩
      exact SameOffers.foldl hpush notices (s.message _ _)

end Scene

section

open Scene (SameNotices)

variable {ω : Type} {b : Behaviours ω} (hh : ∀ c e w, SameNotices w.scene (b.handle c e w).scene)
  (hr : ∀ c args e w, SameNotices w.scene (b.respond c args e w).scene)

include hh hr

end

end UiTree
