import Mathlib.Logic.Equiv.Basic
import UiTree.Proofs.Host.Effect
import UiTree.Proofs.Recording
import UiTree.Proofs.Scene.Refs
import UiTree.Proofs.TreeInvariant
set_option autoImplicit false

/-!
Host elements that have nothing to do with one another can be created in either order. The two
numbers that the new nodes get depend on the order, and nothing else does: the scenes are the same
under the exchange of these numbers.
-/

namespace UiTree

mutual

def Element.rename (σ : NodeId → NodeId) : Element → Element
  | .node n => .node (σ n)
  | .fragment slot items => .fragment slot (renameAll σ items)

def renameAll (σ : NodeId → NodeId) : List Element → List Element
  | [] => []
  | e :: rest => e.rename σ :: renameAll σ rest

end

mutual

theorem Element.rename_of_fixed {σ : NodeId → NodeId} (e : Element) (h : ∀ n ∈ e.nodes, σ n = n) :
    e.rename σ = e := by
  cases e with
  | node n => rw [Element.rename, h n (by simp [Element.nodes])]
  | fragment slot items =>
    rw [Element.rename, renameAll_of_fixed items (by simpa [Element.nodes] using h)]

theorem renameAll_of_fixed {σ : NodeId → NodeId} (es : List Element)
    (h : ∀ n ∈ flatten es, σ n = n) : renameAll σ es = es := by
  cases es with
  | nil => rfl
  | cons e rest =>
    rw [renameAll, e.rename_of_fixed fun n hn => h n (by simp [flatten, hn]),
      renameAll_of_fixed rest fun n hn => h n (by simp [flatten, hn])]

end

def NodeData.rename (σ : NodeId → NodeId) (d : NodeData) : NodeData :=
  d.relink (d.parent.map σ) (d.children.map σ)

/-- The one scene is the other under other numbers for its nodes. The journals may differ. -/
structure Scene.RenamedTo (σ : NodeId → NodeId) (s s' : Scene) : Prop where
  size : s'.tree.size = s.tree.size
  node : ∀ n, s'.node (σ n) = (s.node n).rename σ
  refs_size : s'.refs.size = s.refs.size
  refs : ∀ id key, (s'.refMap id).get? key = ((s.refMap id).get? key).map (Element.rename σ)
  slots : s'.slots = s.slots
  sinks : s'.sinks = s.sinks
  flags : s'.flags = s.flags
  serials : s'.serials = s.serials

namespace Scene

structure BothBuilt (s s' : Scene) (a b : NodeId) (rowA rowB : NodeData)
    (requestA requestB : Option RefRequest) (xs ys : List NodeId) : Prop where
  size : s'.tree.size = s.tree.size + 2
  nodeA : s'.node a = rowA.relink none xs.dedup
  nodeB : s'.node b = rowB.relink none ys.dedup
  old : ∀ n, n ≠ a → n ≠ b → s'.node n =
    (s.node n).relink (if n ∈ xs then some a else if n ∈ ys then some b else (s.node n).parent)
      ((s.node n).children.filter fun c => c ∉ xs ∧ c ∉ ys)
  refs_size : s'.refs.size = s.refs.size
  refs : ∀ id key, (s'.refMap id).get? key =
    if requestA = some ⟨key, id⟩ ∧ id < s.refs.size then some (.node a)
    else if requestB = some ⟨key, id⟩ ∧ id < s.refs.size then some (.node b)
    else (s.refMap id).get? key
  slots : s'.slots = s.slots
  sinks : s'.sinks = s.sinks
  flags : s'.flags = s.flags
  serials : s'.serials = s.serials

theorem refs_size_bindIfAsked (s : Scene) (request : Option RefRequest) (e : Element) :
    (s.bindIfAsked request e).refs.size = s.refs.size := by
  cases request with
  | none => rfl
  | some r => simp [bindIfAsked, bind, message]

section

variable {s s₁ s₂ : Scene} {rowA rowB : NodeData} {requestA requestB : Option RefRequest}
  {xs ys : List NodeId}

theorem HostBuilt.both (hA : HostBuilt s s₁ rowA requestA xs)
    (hB : HostBuilt s₁ s₂ rowB requestB ys) (hys : ∀ n ∈ ys, n < s.tree.size)
    (hxy : ∀ n ∈ xs, n ∉ ys) (hr : ∀ r, requestA = some r → requestB ≠ some r) :
    BothBuilt s s₂ s.tree.size (s.tree.size + 1) rowA rowB requestA requestB xs ys where
  size := by rw [hB.size, hA.size]
  nodeA := by
    have hne : s.tree.size ≠ s₁.tree.size := by rw [hA.size]; omega
    have hnot : s.tree.size ∉ ys := fun hm => Nat.lt_irrefl _ (hys _ hm)
    have hkept : xs.dedup.filter (· ∉ ys) = xs.dedup :=
      List.filter_eq_self.2 fun n hn => decide_eq_true (hxy n (List.mem_dedup.1 hn))
    rw [hB.old _ hne, hA.new, if_neg hnot]
    exact congrArg (fun cs => rowA.relink none cs) hkept
  nodeB := by rw [← hA.size, hB.new]
  old n hna hnb := by
    rw [← hA.size] at hnb
    have hparent :
        (if n ∈ ys then some (s.tree.size + 1) else
          if n ∈ xs then some s.tree.size else (s.node n).parent) =
        if n ∈ xs then some s.tree.size else
          if n ∈ ys then some (s.tree.size + 1) else (s.node n).parent := by
      by_cases hx : n ∈ xs
      · simp [hx, hxy n hx]
      · simp [hx]
    have hchildren : ((s.node n).children.filter (· ∉ xs)).filter (· ∉ ys) =
        (s.node n).children.filter fun c => c ∉ xs ∧ c ∉ ys := by
      rw [List.filter_filter]
      refine List.filter_congr fun c _ => ?_
      simp [Bool.and_comm]
    rw [hB.old n hnb, hA.old n hna, hA.size]
    exact congrArg₂ (fun p cs => (s.node n).relink p cs) hparent hchildren
  refs_size := by rw [hB.refs, refs_size_bindIfAsked, hA.refs, refs_size_bindIfAsked]
  refs id key := by
    have hsize : s₁.refs.size = s.refs.size := by rw [hA.refs, refs_size_bindIfAsked]
    rw [get?_refMap_of_bound hB.refs, get?_refMap_of_bound hA.refs, hA.size, hsize]
    by_cases ha : requestA = some ⟨key, id⟩
    · simp [ha, hr _ ha]
    · simp [ha]
  slots := by rw [hB.slots, hA.slots]
  sinks := by rw [hB.sinks, hA.sinks]
  flags := by rw [hB.flags, hA.flags]
  serials := by rw [hB.serials, hA.serials]

theorem BothBuilt.symm {s' : Scene} {a b : NodeId}
    (h : BothBuilt s s' a b rowA rowB requestA requestB xs ys) (hxy : ∀ n ∈ xs, n ∉ ys)
    (hr : ∀ r, requestA = some r → requestB ≠ some r) :
    BothBuilt s s' b a rowB rowA requestB requestA ys xs where
  size := h.size
  nodeA := h.nodeB
  nodeB := h.nodeA
  old n hnb hna := by
    rw [h.old n hna hnb, ite_ite_comm (h := hxy n)]
    simp only [and_comm]
  refs_size := h.refs_size
  refs id key := by
    rw [h.refs, ite_ite_comm]
    rintro ⟨ha, -⟩ ⟨hb, -⟩
    exact hr _ ha hb
  slots := h.slots
  sinks := h.sinks
  flags := h.flags
  serials := h.serials

/-- Where two host elements exchange their numbers, the scenes differ by this exchange. -/
theorem BothBuilt.renamedTo {a b : NodeId} (h : s.tree.WellFormed) (hrefs : s.RefsKnown)
    (ha : s.tree.size ≤ a) (hb : s.tree.size ≤ b) (hxs : ∀ n ∈ xs, n < s.tree.size)
    (hys : ∀ n ∈ ys, n < s.tree.size)
    (h₁ : BothBuilt s s₁ a b rowA rowB requestA requestB xs ys)
    (h₂ : BothBuilt s s₂ b a rowA rowB requestA requestB xs ys) :
    RenamedTo (Equiv.swap a b) s₁ s₂ := by
  -- whatever the scene before names has a number below both
  have hfixed : ∀ n, n < s.tree.size → Equiv.swap a b n = n := fun n hn =>
    Equiv.swap_apply_of_ne_of_ne (Nat.ne_of_lt (Nat.lt_of_lt_of_le hn ha))
      (Nat.ne_of_lt (Nat.lt_of_lt_of_le hn hb))
  have hmap : ∀ ns : List NodeId, (∀ n ∈ ns, n < s.tree.size) →
      ns.map (Equiv.swap a b) = ns := fun ns hns =>
    (List.map_congr_left fun n hn => hfixed n (hns n hn)).trans (List.map_id ns)
  have hparent : ∀ n, (s.node n).parent.map (Equiv.swap a b) = (s.node n).parent := fun n => by
    cases hp : (s.node n).parent with
    | none => rfl
    | some p => exact congrArg some (hfixed p (h.parent_lt_size hp))
  have hentry : ∀ id key, ((s.refMap id).get? key).map (Element.rename (Equiv.swap a b)) =
      (s.refMap id).get? key :=
    fun id key => by
      cases he : (s.refMap id).get? key with
      | none => rfl
      | some e =>
        exact congrArg some (e.rename_of_fixed fun n hn => hfixed n ((hrefs id key e he).1 n hn))
  refine ⟨?_, fun n => ?_, ?_, fun id key => ?_, ?_, ?_, ?_, ?_⟩
  · rw [h₂.size, h₁.size]
  · by_cases hna : n = a
    · rw [hna, Equiv.swap_apply_left, h₂.nodeA, h₁.nodeA]
      exact congrArg (fun cs => rowA.relink none cs)
        (hmap _ fun n hn => hxs n (List.mem_dedup.1 hn)).symm
    · by_cases hnb : n = b
      · rw [hnb, Equiv.swap_apply_right, h₂.nodeB, h₁.nodeB]
        exact congrArg (fun cs => rowB.relink none cs)
          (hmap _ fun n hn => hys n (List.mem_dedup.1 hn)).symm
      · rw [Equiv.swap_apply_of_ne_of_ne hna hnb, h₂.old n hnb hna, h₁.old n hna hnb]
        refine congrArg₂ (fun p cs => (s.node n).relink p cs) ?_ (hmap _ fun c hc => ?_).symm
        · simp only [NodeData.relink, apply_ite (Option.map (Equiv.swap a b)), Option.map_some,
            Equiv.swap_apply_left, Equiv.swap_apply_right, hparent]
        · exact h.child_lt_size (List.mem_of_mem_filter hc)
  · rw [h₂.refs_size, h₁.refs_size]
  · simp only [h₂.refs, h₁.refs, apply_ite (Option.map (Element.rename (Equiv.swap a b))),
      Option.map_some, Element.rename, Equiv.swap_apply_left, Equiv.swap_apply_right, hentry]
  · rw [h₂.slots, h₁.slots]
  · rw [h₂.sinks, h₁.sinks]
  · rw [h₂.flags, h₁.flags]
  · rw [h₂.serials, h₁.serials]

end

end Scene

structure HostCall where
  engine : Engine
  tag : String
  config : Config
  children : List Element

namespace HostCall

def run {ω : Type} (b : Behaviours ω) (c : HostCall) (w : World ω) :
    Except Error Element × World ω :=
  c.engine.create b (.tag c.tag) c.config c.children w

/-- The calls have nothing to do with one another: no node is a child of both, nothing waits on the
children, and they do not ask for the same ref. -/
structure Independent (s : Scene) (c d : HostCall) : Prop where
  known : (∀ e ∈ c.children, s.Knows e) ∧ ∀ e ∈ d.children, s.Knows e
  apart : ∀ n ∈ flatten c.children, n ∉ flatten d.children
  idle : s.pendingOn c.children = [] ∧ s.pendingOn d.children = []
  refs : (∃ request, c.config.refRequest = .ok request) ∧
    ∃ request, d.config.refRequest = .ok request
  refs_apart : ∀ r, c.config.refRequest = .ok (some r) → d.config.refRequest ≠ .ok (some r)

theorem Independent.symm {s : Scene} {c d : HostCall} (h : Independent s c d) :
    Independent s d c where
  known := h.known.symm
  apart n hd hc := h.apart n hc hd
  idle := h.idle.symm
  refs := h.refs.symm
  refs_apart r hd hc := h.refs_apart r hc hd

theorem Independent.run_both {ω : Type} (b : Behaviours ω) {c d : HostCall} {w : World ω}
    (h : Independent w.scene c d) (hwf : w.scene.tree.WellFormed)
    {requestC requestD : Option RefRequest} (hc : c.config.refRequest = .ok requestC)
    (hd : d.config.refRequest = .ok requestD) :
    ∃ s s', c.run b w = (.ok (.node w.scene.tree.size), { w with scene := s }) ∧
      d.run b { w with scene := s } = (.ok (.node (w.scene.tree.size + 1)),
      { w with scene := s' }) ∧
      w.scene.BothBuilt s' w.scene.tree.size (w.scene.tree.size + 1)
      (.furnished c.engine.events c.tag c.config)
        (.furnished d.engine.events d.tag d.config) requestC requestD (flatten c.children)
        (flatten d.children) := by
  obtain ⟨s, hrun, hbuilt⟩ := c.engine.create_tag_of_idle b c.tag hc hwf h.known.1 h.idle.1
  have hlt := Scene.lt_size_of_knows h.known.2
  -- the first call moves nodes and makes one, and takes nothing from anybody
  have hknown : ∀ e ∈ d.children, s.Knows e := fun e he => by
    obtain ⟨hnodes, hslots⟩ := h.known.2 e he
    exact ⟨fun n hn => by rw [hbuilt.size]; exact Nat.lt_succ_of_lt (hnodes n hn),
      fun f hf => by rw [hbuilt.slots]; exact hslots f hf⟩
  have hidle : s.pendingOn d.children = [] := by rw [hbuilt.pendingOn_eq hlt, h.idle.2]
  obtain ⟨s', hrun', hbuilt'⟩ :=
    d.engine.create_tag_of_idle b d.tag hd (w := { w with scene := s }) hbuilt.wellFormed hknown
      hidle
  refine ⟨s, s', hrun, ?_, hbuilt.both hbuilt' hlt h.apart fun r hr hr' => ?_⟩
  · rw [← hbuilt.size]
    exact hrun'
  · exact h.refs_apart r (hr ▸ hc) (hr' ▸ hd)

end HostCall

/-- Of every reachable scene and two independent calls for host elements: either order succeeds,
whatever the callbacks of the program are, and the two orders differ by nothing but the numbers of
the two new nodes. -/
theorem Course.Reachable.host_calls_commute {m : Moment} (hm : Reachable m) {ω : Type}
    (b : Behaviours ω) (program : ω) {c d : HostCall} (h : c.Independent m.scene d) :
    let n := m.scene.tree.size
    ∃ s₁ s₁₂ s₂ s₂₁, c.run b ⟨m.scene, program⟩ = (.ok (.node n), ⟨s₁, program⟩) ∧
      d.run b ⟨s₁, program⟩ = (.ok (.node (n + 1)), ⟨s₁₂, program⟩) ∧
      d.run b ⟨m.scene, program⟩ = (.ok (.node n), ⟨s₂, program⟩) ∧
      c.run b ⟨s₂, program⟩ = (.ok (.node (n + 1)), ⟨s₂₁, program⟩) ∧
      s₁₂.RenamedTo (Equiv.swap n (n + 1)) s₂₁ := by
  obtain ⟨⟨requestC, hc⟩, requestD, hd⟩ := h.refs
  obtain ⟨s₁, s₁₂, hfirst, hsecond, hboth⟩ :=
    h.run_both b (w := ⟨m.scene, program⟩) hm.wellFormed hc hd
  obtain ⟨s₂, s₂₁, hfirst', hsecond', hboth'⟩ :=
    h.symm.run_both b (w := ⟨m.scene, program⟩) hm.wellFormed hd hc
  have hexchanged := hboth'.symm h.symm.apart fun r hr hr' => h.refs_apart r (hr' ▸ hc) (hr ▸ hd)
  have hrenamed :=
    Scene.BothBuilt.renamedTo hm.wellFormed hm.refsKnown (Nat.le_refl _) (Nat.le_succ _)
    (Scene.lt_size_of_knows h.known.1) (Scene.lt_size_of_knows h.known.2) hboth hexchanged
  exact ⟨s₁, s₁₂, s₂, s₂₁, hfirst, hsecond, hfirst', hsecond', hrenamed⟩

def Course.nestedList : Moment :=
  let list := ((Scene.empty .off).addRefs.2.addNode (.element "ul")).2
  let items := ((list.addNode (.text "a")).2.addNode (.text "b")).2
  ⟨((items.append 0 1).2.append 0 2).2, [.code], ⟨[], []⟩⟩

theorem Course.reachable_nestedList : Reachable nestedList :=
  ⟨.off, .tail (.tail (.tail (.tail (.tail (.single (.act (.makeRefs _))) (.act (.makeNode _ _)))
    (.act (.makeNode _ _))) (.act (.makeNode _ _))) (.act (.append _ 0 (by decide))))
    (.act (.append _ 0 (by decide)))⟩

def wrapList : HostCall := ⟨.usual, "div", .withRef .empty ⟨"list", 0⟩, [.node 0]⟩

def wrapItem : HostCall := ⟨.usual, "b", .withRef .empty ⟨"item", 0⟩, [.node 1]⟩

theorem independent_wrapList_wrapItem : wrapList.Independent Course.nestedList.scene wrapItem where
  known := by
    simp only [wrapList, wrapItem, List.forall_mem_singleton, Scene.knows_node_iff]
    decide
  apart := by simp [wrapList, wrapItem, flatten, Element.nodes]
  idle := ⟨by decide, by decide⟩
  refs := ⟨⟨some ⟨"list", 0⟩, rfl⟩, some ⟨"item", 0⟩, rfl⟩
  refs_apart r hc hd := by
    have hkey : "list" = "item" :=
      congrArg RefRequest.key (Option.some.inj (Except.ok.inj (hc.trans hd.symm)))
    exact absurd hkey (by decide)

theorem Course.Reachable.host_calls_commute_of_nested : ∃ (m : Moment) (c d : HostCall),
    Reachable m ∧ m.scene.tree.children 0 = [1, 2] ∧ c.children = [.node 0] ∧
    d.children = [.node 1] ∧ c.Independent m.scene d ∧
      ∃ s₁ s₁₂ s₂ s₂₁, c.run recording ⟨m.scene, []⟩ = (.ok (.node 3), ⟨s₁, []⟩) ∧
        d.run recording ⟨s₁, []⟩ = (.ok (.node 4), ⟨s₁₂, []⟩) ∧
        d.run recording ⟨m.scene, []⟩ = (.ok (.node 3), ⟨s₂, []⟩) ∧
        c.run recording ⟨s₂, []⟩ = (.ok (.node 4), ⟨s₂₁, []⟩) ∧
        s₁₂.RenamedTo (Equiv.swap 3 4) s₂₁ := by
  have hcommute := reachable_nestedList.host_calls_commute recording []
    independent_wrapList_wrapItem
  have hsize : nestedList.scene.tree.size = 3 := by decide
  simp only [hsize] at hcommute
  exact ⟨_, _, _, reachable_nestedList, by decide, rfl, rfl, independent_wrapList_wrapItem,
    hcommute⟩

end UiTree
