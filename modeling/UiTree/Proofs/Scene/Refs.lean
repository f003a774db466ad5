import UiTree.Proofs.Host
import UiTree.Proofs.Scene.Settle
set_option autoImplicit false

/-!
The maps of refs. Only create calls write them, each under the one key that its config asks for, and
what they write has been made by then. So at every moment the maps name nothing but what has been
made.
-/

namespace UiTree

namespace Scene

theorem refMap_bindIfAsked (s : Scene) (r : RefRequest) (e : Element) (id : RefsId) :
    (s.bindIfAsked (some r) e).refMap id =
      if id = r.refs ∧ id < s.refs.size then (s.refMap id).set r.key e else s.refMap id := by
  simp only [bindIfAsked, bind, message, refMap, Array.getD_eq_getD_getElem?, Array.getElem?_modify]
  by_cases hid : r.refs = id
  · subst hid
    by_cases hlt : r.refs < s.refs.size <;> simp [hlt]
  · simp [hid, Ne.symm hid]

theorem get?_bindIfAsked (s : Scene) (request : Option RefRequest) (e : Element) (id : RefsId)
    (key : String) : ((s.bindIfAsked request e).refMap id).get? key =
      if request = some ⟨key, id⟩ ∧ id < s.refs.size then some e else (s.refMap id).get? key := by
  cases request with
  | none => simp [bindIfAsked]
  | some r =>
    rw [refMap_bindIfAsked]
    by_cases hid : id = r.refs ∧ id < s.refs.size
    · rw [if_pos hid]
      by_cases hkey : key = r.key
      · have hr : r = ⟨key, id⟩ := by rw [hkey, hid.1]
        rw [if_pos ⟨congrArg some hr, hid.2⟩, hkey, Dict.get?_set_self]
      · have hr : some r ≠ some ⟨key, id⟩ :=
          fun h => hkey (congrArg RefRequest.key (Option.some.inj h)).symm
        rw [if_neg fun h => hr h.1, Dict.get?_set_of_ne _ _ hkey]
    · have hr : ¬ (some r = some ⟨key, id⟩ ∧ id < s.refs.size) := fun h =>
        hid ⟨(congrArg RefRequest.refs (Option.some.inj h.1)).symm, h.2⟩
      rw [if_neg hid, if_neg hr]

theorem get?_refMap_of_bound {s s' : Scene} {request : Option RefRequest} {e : Element}
    (h : s'.refs = (s.bindIfAsked request e).refs) (id : RefsId) (key : String) :
    (s'.refMap id).get? key =
      if request = some ⟨key, id⟩ ∧ id < s.refs.size then some e else (s.refMap id).get? key := by
  rw [← get?_bindIfAsked, refMap, h]
  rfl

theorem refs_pushNotices (e : Element) (notices : List Notice) (s : Scene) :
    (notices.foldl (·.pushNotice e) s).refs = s.refs := by
  induction notices generalizing s with
  | nil => rfl
  | cons n rest ih =>
    rw [List.foldl_cons, ih]
    cases e <;> rfl

theorem refs_announce (s : Scene) (result : Element) (notices : List Notice) :
    (s.announce result notices).refs = s.refs := by
  unfold announce
  split
  · rfl
  · cases result with
    | node parent => rfl
    | fragment slot items => exact refs_pushNotices _ notices _

theorem refs_collect (s : Scene) (result : Element) (nodes : List NodeId) (slots : List SlotId) :
    (s.collect result nodes slots).2.refs = s.refs := by
  have hnodes : ∀ (nodes : List NodeId) (s : Scene), (s.takeFromNodes nodes).2.refs = s.refs := by
    intro nodes
    induction nodes with
    | nil => exact fun s => rfl
    | cons n rest ih => exact fun s => ih _
  have hslots : ∀ (slots : List SlotId) (s : Scene), (s.takeFromSlots slots).2.refs = s.refs := by
    intro slots
    induction slots with
    | nil => exact fun s => rfl
    | cons i rest ih => exact fun s => ih _
  exact (hslots slots _).trans (hnodes _ s)

theorem refs_build (s : Scene) (events : EventSet) (tag : String) (config : Config)
    (nodes : List NodeId) : ∃ request, (s.build events tag config nodes).2.refs =
      (s.bindIfAsked request (.node s.tree.size)).refs := by
  rw [build_eq]
  cases config.refRequest with
  | error e => exact ⟨none, rfl⟩
  | ok request => exact ⟨request, (s.furnish_rest events tag config request).1⟩

theorem size_build (s : Scene) (events : EventSet) (tag : String) (config : Config)
    (nodes : List NodeId) : (s.build events tag config nodes).2.tree.size = s.tree.size + 1 := by
  rw [build_eq]
  cases config.refRequest with
  | error e => exact s.size_addNode _
  | ok request =>
    exact (Tree.size_appendAll _ _ _).trans (s.furnish_root events tag config request).2.2.1

def RefsKnown (s : Scene) : Prop := ∀ id key e, (s.refMap id).get? key = some e → s.Knows e

theorem RefsKnown.congr {s s' : Scene} (h : RefsKnown s) (hx : s.Extends s')
    (hr : ∀ id, s'.refMap id = s.refMap id) : RefsKnown s' := by
  intro id key e he
  rw [hr] at he
  exact hx.knows (h id key e he)

theorem RefsKnown.bound {s s' : Scene} (h : RefsKnown s) (hx : s.Extends s')
    {request : Option RefRequest} {e : Element} (hk : s'.Knows e)
    (hr : s'.refs = (s.bindIfAsked request e).refs) : RefsKnown s' := by
  intro id key e' he
  rw [get?_refMap_of_bound hr] at he
  split at he
  · cases he
    exact hk
  · exact hx.knows (h id key e' he)

theorem RefsKnown.build {s : Scene} (h : RefsKnown s) (events : EventSet) (tag : String)
    (config : Config) (nodes : List NodeId) : RefsKnown (s.build events tag config nodes).2 := by
  obtain ⟨request, hr⟩ := s.refs_build events tag config nodes
  refine h.bound (s.extends_build events tag config nodes) ⟨fun n hn => ?_,
    fun f hf => by cases hf⟩ hr
  rw [List.mem_singleton.1 hn, size_build]
  exact Nat.lt_succ_self _

end Scene

namespace Course

open Scene (RefsKnown)

theorem Act.refMap_eq {s s' : Scene} (h : Act s s') (id : RefsId) : s'.refMap id = s.refMap id := by
  cases h with
  | append p hc =>
    unfold Scene.append
    split <;> rfl
  | render doc key he =>
    unfold Scene.render
    split <;> rfl
  | offerMethod cur name c =>
    unfold Scene.offerMethod
    split <;> rfl
  | makeRefs =>
    simp only [Scene.refMap, Scene.addRefs, Array.getD_eq_getD_getElem?, Array.getElem?_push]
    split
    · rename_i hid
      simp [hid]
    · rfl
  | makeNode | detach | setTextContent | setAttribute | removeAttribute | listen | setMethod
  | renderInto | makeSlot
  | makeSink | makeFlag | takeSerial | offerNotice | stop | journal | letGo => rfl

theorem Moment.refsKnown_deliver {m : Moment} (h : RefsKnown m.scene) (result : Element)
    (nodes : List NodeId) (slots : List SlotId) :
    RefsKnown (m.deliver result nodes slots).scene := by
  refine h.congr (m.extends_deliver result nodes slots) fun id => ?_
  have hrefs : (m.deliver result nodes slots).scene.refs = m.scene.refs :=
    (Scene.refs_announce _ result _).trans (m.scene.refs_collect result nodes slots)
  rw [Scene.refMap, hrefs]
  rfl

theorem Step.refsKnown {m m' : Moment} (hs : Step m m') (h : RefsKnown m.scene) :
    RefsKnown m'.scene := by
  have hgrows := hs.grows
  cases hs with
  | act ha => exact h.congr hgrows ha.refMap_eq
  | @build s s' ks l engine name config children n hc hb =>
    have hbuilt :=
      RefsKnown.build (s := s.announceTag name (flatten children)) h engine.events name config
      (flatten children)
    rw [hb] at hbuilt
    exact Moment.refsKnown_deliver hbuilt _ _ _
  | @buildFails s s' ks l engine name config children e hc hb =>
    have hbuilt :=
      RefsKnown.build (s := s.announceTag name (flatten children)) h engine.events name config
      (flatten children)
    rwa [hb] at hbuilt
  | call s ks l c hc hr => exact h.congr hgrows fun id => (Act.makeRefs _).refMap_eq id
  | @bodyReturns s s' ks l name request cur nodes slots result hk hset =>
    have hsettled := h.bound (s.extends_settle name request cur result)
      ((s.extends_settle name request cur result).knows hk) (s.refs_settle name request cur result)
    rw [hset] at hsettled
    exact Moment.refsKnown_deliver hsettled _ _ _
  | @bodyRefused s s' ks l name request cur nodes slots result e hk hset =>
    have hsettled := h.bound (s.extends_settle name request cur result)
      ((s.extends_settle name request cur result).knows hk) (s.refs_settle name request cur result)
    rwa [hset] at hsettled
  | bodyFails | tell | answered | delivered | dispatch | hear | heard | rise | dispatched =>
    exact h.congr hgrows fun _ => rfl

theorem Reachable.refsKnown {m : Moment} (h : Reachable m) : RefsKnown m.scene := by
  obtain ⟨level, hs⟩ := h
  induction hs with
  | refl =>
    intro id key e he
    simp [Moment.start, Scene.empty, Scene.refMap] at he
  | tail _ hlast ih => exact hlast.refsKnown ih

end Course

end UiTree
