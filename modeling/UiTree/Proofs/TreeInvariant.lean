import UiTree.Proofs.Scene.Links
set_option autoImplicit false

/-!
The tree of every moment of every run is well formed. What one step writes is well formed again, and
the rest is induction over the steps; callbacks need no case of their own, since their steps are
steps of the run.
-/

namespace UiTree.Course

open Relation
open UiTree.Tree (WellFormed)

theorem Act.wellFormed {s s' : Scene} (ha : Act s s') (h : WellFormed s.tree) :
    WellFormed s'.tree := by
  cases ha with
  | makeNode kind => exact h.add kind
  | append p hc => exact Scene.wellFormed_append h p hc
  | detach n => exact h.detach n
  | setTextContent n text => exact h.setTextContent n text
  | setAttribute n name value => exact h.sameLinks (.modify rfl rfl rfl)
  | removeAttribute n name => exact h.sameLinks (.modify rfl rfl rfl)
  | listen n event v => exact h.sameLinks (.modify rfl rfl rfl)
  | setMethod n name c => exact h.sameLinks (.modify rfl rfl rfl)
  | renderInto root he => exact Scene.wellFormed_renderInto h root he.1
  | render doc id he => exact Scene.wellFormed_render h doc id he.1
  | offerMethod id name c => rwa [Scene.tree_offerMethod]
  | letGo kept => exact h.prune kept
  | makeSlot | makeRefs | makeSink | makeFlag | takeSerial | offerNotice | stop | journal => exact h

theorem Moment.wellFormed_deliver {m : Moment} (h : WellFormed m.scene.tree) (result : Element)
    (nodes : List NodeId) (slots : List SlotId) :
    WellFormed (m.deliver result nodes slots).scene.tree := by
  have hc := h.sameLinks (Scene.sameLinks_collect m.scene result nodes slots)
  exact hc.sameLinks (Scene.sameLinks_announce _ result _)

theorem Step.wellFormed {m m' : Moment} (hs : Step m m') (h : WellFormed m.scene.tree) :
    WellFormed m'.scene.tree := by
  cases hs with
  | act ha => exact ha.wellFormed h
  | @build s s' ks l engine name config children n hc hb =>
    have hbuilt := Scene.wellFormed_build (s := s.announceTag name (flatten children)) h
      engine.events name config (Scene.lt_size_of_knows hc)
    rw [hb] at hbuilt
    exact Moment.wellFormed_deliver hbuilt _ _ _
  | @buildFails s s' ks l engine name config children e hc hb =>
    have hbuilt := Scene.wellFormed_build (s := s.announceTag name (flatten children)) h
      engine.events name config (Scene.lt_size_of_knows hc)
    rwa [hb] at hbuilt
  | @bodyReturns s s' ks l name request cur nodes slots result hk hset =>
    have hsettled := h.sameLinks (Scene.sameLinks_settle s name request cur result)
    rw [hset] at hsettled
    exact Moment.wellFormed_deliver hsettled _ _ _
  | @bodyRefused s s' ks l name request cur nodes slots result e hk hset =>
    have hsettled := h.sameLinks (Scene.sameLinks_settle s name request cur result)
    rwa [hset] at hsettled
  | call | bodyFails | tell | answered | delivered | dispatch | hear | heard | rise | dispatched =>
    exact h

theorem Steps.wellFormed {m m' : Moment} (hs : Steps m m') (h : WellFormed m.scene.tree) :
    WellFormed m'.scene.tree := by
  induction hs with
  | refl => exact h
  | tail _ hlast ih => exact hlast.wellFormed ih

theorem Reachable.wellFormed {m : Moment} (h : Reachable m) : WellFormed m.scene.tree := by
  obtain ⟨level, hs⟩ := h
  exact hs.wellFormed .empty

/-- Of every moment: parents and lists of children agree, no list repeats a child, texts have none,
no way up comes back, and different nodes have different numbers. Nodes that are given up are
nobody's parents any more. -/
theorem Reachable.links_agree {m : Moment} (h : Reachable m) :
    (∀ p c, c ∈ m.scene.tree.children p ↔ m.scene.tree.parent c = some p) ∧
      (∀ p, (m.scene.tree.children p).Nodup) ∧
      (∀ n, (m.scene.node n).isText = true → m.scene.tree.children n = []) ∧
      (∀ n, ¬ TransGen m.scene.tree.Under n n) ∧
      (∀ p c : NodeId, p ≠ c → p.number ≠ c.number) ∧
      ∀ kept c p, (m.scene.tree.prune kept).parent c = some p → kept.getD p false = true := by
  have hw := h.wellFormed
  obtain ⟨rank, hr⟩ := hw.ranked
  refine ⟨hw.mem_children_iff, hw.nodup_children, hw.children_of_isText, hr.not_above_self,
    fun p c => NodeId.number_ne, fun kept c p hp => ?_⟩
  rw [(Tree.prune_links m.scene.tree kept c).1] at hp
  split at hp
  · exact (Option.filter_eq_some_iff.1 hp).2
  · cases hp

def leafText : Scene := ((Scene.empty .off).addNode (.text "a")).2

def paragraph : Scene := { leafText with
  tree := ⟨#[{ NodeData.ofKind (.text "a") with parent := some 1 },
    { NodeData.ofKind (.element "p") with children := [0] }]⟩ }

theorem reachable_paragraph : Reachable ⟨paragraph, [.telling 1 [], .code], ⟨[], []⟩⟩ := by
  have hmake : Step (.start .off) ⟨leafText, [.code], ⟨[], []⟩⟩ := .act (.makeNode _ _)
  have hknown : ∀ e ∈ [Element.node 0], leafText.Knows e := by
    simp [leafText, Scene.knows_node_iff]
  have hbuilt : (leafText.announceTag "p" (flatten [.node 0])).build Engine.usual.events "p" .empty
      (flatten [.node 0]) = (.ok 1, paragraph) := rfl
  exact ⟨.off, .tail (.single hmake) (.build .usual "p" .empty hknown hbuilt)⟩

theorem Reachable.links_agree_of_built : ∃ m, Reachable m ∧ m.scene.tree.parent 0 = some 1 ∧
    0 ∈ m.scene.tree.children 1 ∧ ¬ TransGen m.scene.tree.Under 0 0 := by
  have hlinks := reachable_paragraph.links_agree
  exact ⟨_, reachable_paragraph, rfl, (hlinks.1 1 0).2 rfl, hlinks.2.2.2.1 0⟩

end UiTree.Course
