import UiTree.Proofs.Host
import UiTree.Proofs.Notices.Collect
set_option autoImplicit false

/-!
Programs whose notices only write down what they are told. What a create call does to a scene can
then be said in full: a host element takes its children, collects what waits on them and writes down
that it was told the new node.
-/

namespace UiTree

/-- Callbacks and methods that write down what they are told. Bodies are left to others. -/
def recording : Behaviours Log where
  render _ _ w := (.error (.component "no body"), w)
  handle _ _ w := w
  respond _ _ _ w := w
  invoke c args w := (.null, match args with
    | [.node p] => { w with program := w.program ++ [(.method c, p)] }
    | _ => w)
  notify c p w := { w with program := w.program ++ [(.callback c, p)] }

def Behaviours.Records (b : Behaviours Log) : Prop :=
  ∀ p w n, b.tell p w n = { w with program := w.program ++ [(n.answer, p)] }

theorem records_recording : recording.Records := by
  intro p w n
  obtain ⟨serial, answer⟩ := n
  cases answer <;> rfl

namespace Engine

variable {b : Behaviours Log}

theorem deliver_node_of_records (hb : b.Records) (p : NodeId) (notices : List Notice)
    (w : World Log) : Engine.deliver b (.node p) notices w =
      ⟨w.scene.announce (.node p) notices, w.program ++ notices.map fun n => (n.answer, p)⟩ := by
  have hall : ∀ (notices : List Notice) (w : World Log),
      notices.foldl (b.tell p) w =
        { w with program := w.program ++ notices.map fun n => (n.answer, p) } := by
    intro notices
    induction notices with
    | nil => simp
    | cons n rest ih =>
      intro w
      rw [List.foldl_cons, ih, hb p w n]
      simp
  rw [deliver_node, hall]

/-- The effect of a host element that was created around the elements: it is the next node, their
nodes are under it, what waited on them was told its number, and nothing else waits elsewhere than
before. -/
structure HostCreated (w w' : World Log) (es : List Element) : Prop where
  size : w'.scene.tree.size = w.scene.tree.size + 1
  parent : ∀ n, w'.scene.tree.parent n =
    if n ∈ flatten es then some w.scene.tree.size else w.scene.tree.parent n
  pending : ∀ n, (w'.scene.node n).pending = if n ∈ flatten es then [] else (w.scene.node n).pending
  slots : w'.scene.slots.size = w.scene.slots.size
  slot : ∀ i, w'.scene.slot i = if i ∈ slotsOf es then [] else w.scene.slot i
  offers : w.scene.SameOffers w'.scene
  program : w'.program = w.program ++ (gather (fun n => (w.scene.node n).pending) (flatten es) ++
    gather w.scene.slot (slotsOf es)).map fun x => (x.answer, w.scene.tree.size)

theorem create_tag_of_records (hb : b.Records) (engine : Engine) (tag : String) {config : Config}
    {request : Option RefRequest} (hr : config.refRequest = .ok request) {es : List Element}
    {w : World Log}
    (hk : ∀ n ∈ flatten es, n < w.scene.tree.size) :
    ∃ w', engine.create b (.tag tag) config es w = (.ok (.node w.scene.tree.size), w') ∧
      HostCreated w w' es := by
  obtain ⟨s, hbuild, hhosts⟩ :=
    Scene.build_of_lt (s := w.scene.announceTag tag (flatten es)) engine.events tag hr hk
  let got := s.collect (.node w.scene.tree.size) (flatten es) (slotsOf es)
  -- The new node is none of the children, so nothing is left out.
  have hnew : ∀ n ∈ flatten es, (Element.node w.scene.tree.size).node? ≠ some n := by
    intro n hn hsome
    cases hsome
    exact Nat.lt_irrefl _ (hk _ hn)
  have hall : ((flatten es).filter fun n => (Element.node w.scene.tree.size).node? ≠ some n) =
      flatten es :=
    List.filter_eq_self.2 fun n hn => by simpa using hnew n hn
  have hslot : s.slot = w.scene.slot := by
    funext i
    rw [Scene.slot, hhosts.slots]
    rfl
  have hgot : got.1 = gather (fun n => (w.scene.node n).pending) (flatten es) ++ gather w.scene.slot
      (slotsOf es) := by
    rw [Scene.collect_fst, hall, hslot]
    exact congrArg (· ++ _) (gather_congr _ fun n _ => hhosts.pending n)
  have hcreate : engine.create b (.tag tag) config es w =
      (.ok (.node w.scene.tree.size),
      deliver b (.node w.scene.tree.size) got.1 { w with scene := got.2 }) := by
    rw [create_tag, hbuild]
    rfl
  refine ⟨_, hcreate, ?_⟩
  rw [deliver_node_of_records hb]
  have hdrained := s.drained_announce w.scene.tree.size (flatten es) (slotsOf es) got.1
  simp only
  generalize Scene.announce _ _ _ = t at hdrained ⊢
  refine ⟨?_, fun n => ?_, fun n => ?_, ?_,
    fun i => ?_, hhosts.offers.trans hdrained.offers, by rw [hgot]⟩
  · rw [hdrained.links.size, hhosts.size]
    rfl
  · rw [hdrained.links.parent, hhosts.parent]
    rfl
  · rw [hdrained.pending]
    by_cases hn : n ∈ flatten es
    · rw [if_pos ⟨hn, fun h => hnew n hn (congrArg some h)⟩, if_pos hn]
    · rw [if_neg fun h => hn h.1, if_neg hn]
      exact hhosts.pending n
  · rw [hdrained.slots_size, hhosts.slots]
    rfl
  · rw [hdrained.slot, hslot]

end Engine

end UiTree
