import UiTree.Proofs.Append
import UiTree.Proofs.Host.Effect
import UiTree.Proofs.Recording
import UiTree.Proofs.Scene.Refs
set_option autoImplicit false

/-!
The outcome of a create call for a host element. It fails if and only if the config holds something
under the key of refs that is no wish for a ref; then a node was made that nothing refers to, and
nothing else has changed. Otherwise the new node has taken the nodes of the children when the
delivery begins, and no other node has changed but for that.
-/

namespace UiTree

namespace Config

def WellFormed (c : Config) : Prop := ∀ v, c.get? refKey = some v → ∃ r, v = .ref r

theorem refRequest_eq_error_iff {c : Config} {e : Error} : c.refRequest = .error e ↔
    ∃ v, c.get? refKey = some v ∧ (∀ r, v ≠ .ref r) ∧ e = .malformedRef (.notARequest v.text) := by
  unfold refRequest
  cases c.get? refKey with
  | none => simp
  | some v =>
    cases v with
    | ref r => simp
    | null | bool | int | float | str | list | node | element | handler | method => simp [eq_comm]

theorem WellFormed.exists_request {c : Config} (h : c.WellFormed) : ∃ request,
    c.refRequest = .ok request := by
  cases hr : c.refRequest with
  | ok request => exact ⟨request, rfl⟩
  | error e =>
    obtain ⟨v, hv, hne, -⟩ := refRequest_eq_error_iff.1 hr
    obtain ⟨r, hvr⟩ := h v hv
    exact absurd hvr (hne r)

end Config

namespace Scene

/-- A scene with one more node, which nothing refers to. All else is as it was; only the journal may
differ. -/
structure OneUnused (s s' : Scene) (tag : String) : Prop where
  size : s'.tree.size = s.tree.size + 1
  unused : s'.node s.tree.size = .ofKind (.element tag)
  old : ∀ n, n ≠ s.tree.size → s'.node n = s.node n
  unlinked : ∀ n, s'.tree.parent n ≠ some s.tree.size ∧ s.tree.size ∉ s'.tree.children n
  unnamed : ∀ id key e, (s'.refMap id).get? key = some e → s.tree.size ∉ e.nodes
  refs : s'.refs = s.refs
  slots : s'.slots = s.slots
  sinks : s'.sinks = s.sinks
  flags : s'.flags = s.flags
  serials : s'.serials = s.serials

theorem oneUnused_announced {s : Scene} (h : s.tree.WellFormed) (hrefs : s.RefsKnown) (tag : String)
    (nodes : List NodeId) :
    s.OneUnused ((s.announceTag tag nodes).addNode (.element tag)).2 tag where
  size := s.size_addNode _
  unused := s.tree.get_add_self _
  old n hn := (s.tree.get_add _ n).trans (if_neg hn)
  unlinked n := by
    refine ⟨fun hp => ?_, fun hc => ?_⟩
    · exact Nat.lt_irrefl _ (h.parent_lt_size ((s.tree.parent_add _ n).symm.trans hp))
    · have hold : s.tree.size ∈ s.tree.children n := s.tree.children_add (.element tag) n ▸ hc
      exact Nat.lt_irrefl _ (h.child_lt_size hold)
  unnamed id key e he hn := Nat.lt_irrefl _ ((hrefs id key e he).1 _ hn)
  refs := rfl
  slots := rfl
  sinks := rfl
  flags := rfl
  serials := rfl

end Scene

theorem Engine.create_tag_of_error {ω : Type} (b : Behaviours ω) (engine : Engine) (tag : String)
    {config : Config} {e : Error} (hr : config.refRequest = .error e) (es : List Element)
    (w : World ω) :
    engine.create b (.tag tag) config es w =
      (.error e,
        { w with scene := ((w.scene.announceTag tag (flatten es)).addNode (.element tag)).2 }) := by
  rw [create_tag, Scene.build_eq, hr]

namespace Course

variable {m : Moment} {ω : Type}

/-- Of every moment and every create call for a host element, whatever the callbacks of the program
are: it fails if and only if the wish for a ref is malformed, with an error that says so. The world
is then the one before with an unused node, so nothing of the program has run. -/
theorem Reachable.create_tag_fails_iff (hm : Reachable m) (b : Behaviours ω) (program : ω)
    (engine : Engine) (tag : String) (config : Config) {es : List Element}
    (hk : ∀ e ∈ es, m.scene.Knows e) :
    let made := engine.create b (.tag tag) config es ⟨m.scene, program⟩
    let s := ((m.scene.announceTag tag (flatten es)).addNode (.element tag)).2
    (∀ e, made.1 = .error e ↔ ∃ v, config.get? Config.refKey = some v ∧ (∀ r, v ≠ .ref r) ∧
      e = .malformedRef (.notARequest v.text)) ∧
    (∀ e, made.1 = .error e → made.2 = ⟨s, program⟩) ∧ m.scene.OneUnused s tag := by
  have hunused := Scene.oneUnused_announced hm.wellFormed hm.refsKnown tag (flatten es)
  simp only [← Config.refRequest_eq_error_iff]
  cases hr : config.refRequest with
  | error e =>
    rw [engine.create_tag_of_error b tag hr es ⟨m.scene, program⟩]
    exact ⟨fun _ => by simp, fun _ _ => rfl, hunused⟩
  | ok request =>
    obtain ⟨s', hmake, -⟩ :=
      engine.make_tag_built b tag hr (w := ⟨m.scene, program⟩) hm.wellFormed hk
    rw [engine.create_eq b (.tag tag), hmake]
    exact ⟨fun _ => by simp, fun _ he => (by cases he), hunused⟩

theorem Reachable.create_tag_fails_iff_of_text : ∃ (m : Moment) (config : Config), Reachable m ∧
    m.scene.tree.children 0 = [1] ∧ config.get? Config.refKey = some (.str "x") ∧
    let made := Engine.usual.create recording (.tag "div") config [.node 1] ⟨m.scene, []⟩
    made.1 = .error (.malformedRef (.notARequest "x")) ∧ made.2.program = [] ∧
      made.2.scene.node 0 = m.scene.node 0 ∧ made.2.scene.node 1 = m.scene.node 1 := by
  let config : Config := Dict.empty.set Config.refKey (.str "x")
  have hk : ∀ e ∈ [Element.node 1], twoLists.scene.Knows e := by
    simp only [List.forall_mem_singleton, Scene.Knows, Element.nodes, Element.fragments]
    decide
  have hvalue : config.get? Config.refKey = some (.str "x") := Dict.get?_set_self _ _ _
  obtain ⟨hfails, hleft, hunused⟩ :=
    reachable_twoLists.create_tag_fails_iff recording [] .usual "div" config hk
  have herror := (hfails (.malformedRef (.notARequest "x"))).2 ⟨.str "x", hvalue, by simp, rfl⟩
  have hworld := hleft _ herror
  refine ⟨twoLists, config, reachable_twoLists, by decide, hvalue, herror, ?_, ?_, ?_⟩
  · rw [hworld]
  · rw [hworld]
    exact hunused.old 0 (by decide)
  · rw [hworld]
    exact hunused.old 1 (by decide)

/-- Of every moment and every create call for a host element with a well-formed config: when its
delivery begins, in the scene `s`, the children of the new node are the nodes that were given, each
at the place of its last occurrence. They have the new node for their parent and are gone from all
other lists; no other link and nothing else has changed. -/
theorem Reachable.create_tag_places (hm : Reachable m) (b : Behaviours ω) (program : ω)
    (engine : Engine) (tag : String) {config : Config} (hconfig : config.WellFormed)
    {es : List Element} (hk : ∀ e ∈ es, m.scene.Knows e) :
    let n := m.scene.tree.size
    ∃ s : Scene, engine.make b (.tag tag) config (flatten es) ⟨m.scene, program⟩ = (.ok (.node n),
      ⟨s, program⟩) ∧ engine.create b (.tag tag) config es ⟨m.scene, program⟩ = (.ok (.node n),
        Engine.deliver b (.node n) (s.collect (.node n) (flatten es) (slotsOf es)).1
          ⟨(s.collect (.node n) (flatten es) (slotsOf es)).2, program⟩) ∧
      s.tree.children n = (flatten es).dedup ∧
      (∀ c ∈ flatten es, s.tree.parent c = some n) ∧
      (∀ q, q ≠ n → s.tree.children q = (m.scene.tree.children q).filter (· ∉ flatten es)) ∧
      (∀ c, c ∉ flatten es → s.tree.parent c = m.scene.tree.parent c) ∧
      ∀ q, q ≠ n → (s.node q).bare = (m.scene.node q).bare := by
  obtain ⟨request, hr⟩ := hconfig.exists_request
  obtain ⟨s, hmake, hbuilt⟩ :=
    engine.make_tag_built b tag hr (w := ⟨m.scene, program⟩) hm.wellFormed hk
  have hnew : s.tree.parent m.scene.tree.size = none := congrArg NodeData.parent hbuilt.new
  have hold : ∀ q, q ≠ m.scene.tree.size → s.tree.parent q =
      if q ∈ flatten es then some m.scene.tree.size else m.scene.tree.parent q := fun q hq =>
    congrArg NodeData.parent (hbuilt.old q hq)
  refine ⟨s, hmake, by rw [engine.create_eq b (.tag tag), hmake],
    congrArg NodeData.children hbuilt.new, fun c hc => ?_,
    fun q hq => congrArg NodeData.children (hbuilt.old q hq), fun c hc => ?_,
    fun q hq => by rw [hbuilt.old q hq]; rfl⟩
  · rw [hold c (Nat.ne_of_lt (Scene.lt_size_of_knows hk c hc)), if_pos hc]
  · by_cases hcn : c = m.scene.tree.size
    · rw [hcn, hnew, Tree.parent_of_size_le (Nat.le_refl _)]
    · rw [hold c hcn, if_neg hc]

/-- The text is given before and after the item that it stands in. Both leave their places, and the
text comes last. -/
theorem Reachable.create_tag_places_of_nested : ∃ (m : Moment) (s : Scene), Reachable m ∧
    m.scene.tree.children 0 = [1] ∧ m.scene.tree.children 1 = [2] ∧
    Engine.usual.make recording (.tag "div") .empty [2, 1, 2] ⟨m.scene, []⟩ = (.ok (.node 4),
      ⟨s, []⟩) ∧
    s.tree.children 4 = [1, 2] ∧ s.tree.parent 1 = some 4 ∧ s.tree.parent 2 = some 4 ∧
    s.tree.children 0 = [] ∧
    s.tree.children 1 = [] := by
  have hk : ∀ e ∈ [Element.node 2, .node 1, .node 2], twoLists.scene.Knows e := by
    simp only [List.forall_mem_cons, Scene.Knows, Element.nodes, Element.fragments]
    decide
  have hconfig : Config.WellFormed .empty := fun v hv => by cases hv
  obtain ⟨s, hmake, -, hchildren, hparent, hothers, -, -⟩ :=
    reachable_twoLists.create_tag_places recording [] .usual "div" hconfig hk
  have hsize : twoLists.scene.tree.size = 4 := by decide
  rw [hsize] at hmake hchildren hparent hothers
  refine ⟨twoLists, s, reachable_twoLists, by decide, by decide, hmake, hchildren,
    hparent 1 (by decide), hparent 2 (by decide), ?_, ?_⟩
  · rw [hothers 0 (by decide)]
    decide
  · rw [hothers 1 (by decide)]
    decide

end Course

end UiTree
