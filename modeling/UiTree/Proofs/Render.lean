import UiTree.Proofs.Append
import UiTree.Proofs.Lookup
import UiTree.Proofs.Notices.Stay
import UiTree.Proofs.Tree.AppendAll
set_option autoImplicit false

/-!
Rendering. The root is the first node of the document with the given id, and the nodes of the
element are appended to it in turn until one is refused. A node is refused that is the root or above
it, and every node if the root is a text; both can be told before anything moves. No notice is told
or moved.
-/

namespace UiTree

open Relation

namespace Tree

variable {t : Tree}

/-- `p` is a text, or `c` is `p` itself or above it. -/
def Refuses (t : Tree) (p c : NodeId) : Prop := (t.get p).isText = true ∨ ReflTransGen t.Under p c

namespace WellFormed

variable {p c : NodeId}

theorem not_refuses_iff (h : WellFormed t) :
    ¬ t.Refuses p c ↔ (t.get p).isText = false ∧ t.contains c p = false := by
  unfold Refuses
  cases hp : (t.get p).isText with
  | true => simp
  | false =>
    rw [← h.contains_iff (lt_size_of_isText_eq_false hp)]
    simp

theorem free_of_not_refuses (h : WellFormed t) {cs : List NodeId} (hlt : ∀ c ∈ cs, c < t.size)
    (hc : ∀ c ∈ cs, ¬ t.Refuses p c) : t.Free p cs :=
  fun c hmem => ⟨(h.not_refuses_iff.1 (hc c hmem)).2, hlt c hmem⟩

theorem appendAll_of_refuses (h : WellFormed t) {before : List NodeId} (after : List NodeId)
    (hlt : ∀ d ∈ before, d < t.size) (hbefore : ∀ d ∈ before, ¬ t.Refuses p d)
    (hc : t.Refuses p c) :
    t.appendAll p (before ++ c :: after) =
      (.error (.hierarchy (if (t.get p).isText then .intoText c p else .intoOwnSubtree c p)),
        (t.appendAll p before).2) := by
  cases hp : (t.get p).isText with
  | true =>
    -- A text takes nothing, so the first node is refused already.
    have hnil : before = [] := List.eq_nil_iff_forall_not_mem.2 fun d hd => hbefore d hd (.inl hp)
    simp [hnil, Tree.appendAll, Tree.append, hp]
  | false =>
    have hmeets : t.contains c p = true := by
      by_contra hfree
      exact h.not_refuses_iff.2 ⟨hp, by simpa using hfree⟩ hc
    exact appendAll_of_refused before after hp (h.free_of_not_refuses hlt hbefore) hmeets

end WellFormed

theorem exists_first_refused {p : NodeId} {ns : List NodeId} (h : ∃ n ∈ ns, t.Refuses p n) :
    ∃ before c after, ns = before ++ c :: after ∧ (∀ n ∈ before, ¬ t.Refuses p n) ∧
      t.Refuses p c := by
  classical
  have hsome : (ns.find? fun n => decide (t.Refuses p n)).isSome :=
    List.find?_isSome.2 (by simpa using h)
  obtain ⟨c, hc⟩ := Option.isSome_iff_exists.1 hsome
  obtain ⟨hrefused, before, after, heq, hbefore⟩ := List.find?_eq_some_iff_append.1 hc
  exact ⟨before, c, after, heq, by simpa using hbefore, by simpa using hrefused⟩

end Tree

namespace Scene

/-- The nodes were appended to the root one after the other, and all else is as it was; only the
journal may differ. -/
structure Appended (s s' : Scene) (root : NodeId) (nodes : List NodeId) : Prop where
  inTurn : nodes.foldlM (fun t c => t.append root c) s.tree = .ok s'.tree
  rows : ∀ n, s'.node n = (s.node n).relink (if n ∈ nodes then some root else s.tree.parent n)
    ((s.tree.children n).filter (· ∉ nodes) ++ if n = root then nodes.dedup else [])
  rest : s' = { s with tree := s'.tree, journal := s'.journal }

theorem appended_appendAll {s : Scene} (h : s.tree.WellFormed) {root : NodeId} {nodes : List NodeId}
    (hlt : ∀ n ∈ nodes, n < s.tree.size) (hn : ∀ n ∈ nodes, ¬ s.tree.Refuses root n) (j : Journal) :
    s.Appended { s with tree := (s.tree.appendAll root nodes).2, journal := j } root nodes ∧
      (s.tree.appendAll root nodes).1 = .ok () := by
  cases nodes with
  | nil =>
    refine ⟨⟨rfl, fun n => ?_, rfl⟩, rfl⟩
    have hlist : s.tree.children n = (s.tree.children n).filter (· ∉ ([] : List NodeId)) ++
        if n = root then ([] : List NodeId).dedup else [] := by simp
    exact NodeData.eq_relink rfl rfl hlist
  | cons c rest =>
    have hp : (s.tree.get root).isText = false := (h.not_refuses_iff.1 (hn c (by simp))).1
    have hfree := h.free_of_not_refuses hlt hn
    have hok := (Tree.appendAll_of_free _ hp hfree).1
    exact ⟨⟨Tree.foldlM_append_of_appendAll _ hok, Tree.get_appendAll _ h hp hfree, rfl⟩, hok⟩

theorem renderInto_eq (s : Scene) (root : NodeId) (e : Element) : ∃ j, s.renderInto root e =
    ((s.tree.appendAll root e.nodes).1,
      { s with tree := (s.tree.appendAll root e.nodes).2, journal := j }) :=
  ⟨_, rfl⟩

variable {s : Scene} {root : NodeId} {e : Element}

theorem renderInto_of_taken (h : s.tree.WellFormed) (he : ∀ n ∈ e.nodes, n < s.tree.size)
    (htaken : ∀ n ∈ e.nodes, ¬ s.tree.Refuses root n) :
    (s.renderInto root e).1 = .ok () ∧ s.Appended (s.renderInto root e).2 root e.nodes := by
  obtain ⟨j, hj⟩ := s.renderInto_eq root e
  obtain ⟨happended, hok⟩ := appended_appendAll h he htaken j
  rw [hj]
  exact ⟨hok, happended⟩

theorem renderInto_of_refused (h : s.tree.WellFormed) {before after : List NodeId} {c : NodeId}
    (heq : e.nodes = before ++ c :: after) (hlt : ∀ n ∈ before, n < s.tree.size)
    (hbefore : ∀ n ∈ before, ¬ s.tree.Refuses root n) (hc : s.tree.Refuses root c) :
    (s.renderInto root e).1 =
        .error (.hierarchy
          (if (s.node root).isText then .intoText c root else .intoOwnSubtree c root)) ∧
      s.Appended (s.renderInto root e).2 root before := by
  obtain ⟨j, hj⟩ := s.renderInto_eq root e
  have hstop := h.appendAll_of_refuses after hlt hbefore hc
  rw [hj, heq, hstop]
  exact ⟨rfl, (appended_appendAll h hlt hbefore j).1⟩

end Scene

namespace Course

variable {m : Moment}

/-- Of every moment, document, element and id: if no node at or below the body has the id, a render
says so and changes nothing. Otherwise, with the root that is found: if it takes all nodes of the
element, they are its last children, each at the place of its last occurrence. If it refuses one of
them, which for a text is the first, then those before the first that it refuses were appended, and
none after. No notice is told, since nothing of the program runs, and none is moved. -/
theorem Reachable.render_outcome (hm : Reachable m) (doc : Document) (id : String) {e : Element}
    (he : m.scene.Knows e) :
    let s := m.scene
    let made := s.render doc e id
    ((∀ n, ReflTransGen s.tree.Lists doc.body n → ¬ s.tree.HasId id n) →
      made = (.error (.rootNotFound id), s)) ∧
    ((∃ n, ReflTransGen s.tree.Lists doc.body n ∧ s.tree.HasId id n) →
      ∃ root, s.elementById doc id = some root ∧ ReflTransGen s.tree.Lists doc.body root ∧
      s.tree.HasId id root ∧
        ((∀ n ∈ e.nodes, ¬ s.tree.Refuses root n) → made.1 = .ok () ∧
          s.Appended made.2 root e.nodes ∧
          made.2.tree.children root = (s.tree.children root).filter (· ∉ e.nodes) ++
          e.nodes.dedup) ∧
        ((∃ n ∈ e.nodes, s.tree.Refuses root n) → ∃ before c after, e.nodes = before ++ c :: after ∧
          (∀ n ∈ before, ¬ s.tree.Refuses root n) ∧ s.tree.Refuses root c ∧
          ((s.node root).isText = true → before = []) ∧
          made.1 = .error (.hierarchy
            (if (s.node root).isText then .intoText c root else .intoOwnSubtree c root)) ∧
          s.Appended made.2 root before)) ∧
    s.SameNotices made.2 ∧ ∀ ks l, Step ⟨s, .code :: ks, l⟩ ⟨made.2, .code :: ks, l⟩ := by
  have hwf := hm.wellFormed
  intro s made
  refine ⟨fun hnone => ?_, fun hsome => ?_, s.sameNotices_render doc e id,
    fun ks l => .act (.render s doc id he)⟩
  · have hroot : s.elementById doc id = none := hwf.findById_eq_none_iff.2 hnone
    simp only [made, Scene.render, hroot]
  · obtain ⟨n, hn, hid⟩ := hsome
    cases hroot : s.elementById doc id with
    | none => exact absurd hid (hwf.findById_eq_none_iff.1 hroot n hn)
    | some root =>
      obtain ⟨hbelow, hfound⟩ := hwf.findById_eq_some hroot
      have hmade : made = s.renderInto root e := by simp only [made, Scene.render, hroot]
      rw [hmade]
      refine ⟨root, rfl, hbelow, hfound, fun htaken => ?_, fun hrefused => ?_⟩
      · obtain ⟨hok, happended⟩ := Scene.renderInto_of_taken hwf he.1 htaken
        have hrow := congrArg NodeData.children (happended.rows root)
        rw [if_pos rfl] at hrow
        exact ⟨hok, happended, hrow⟩
      · obtain ⟨before, c, after, heq, hbefore, hc⟩ := Tree.exists_first_refused hrefused
        have hlt : ∀ n ∈ before, n < s.tree.size := fun n hn => he.1 n (by simp [heq, hn])
        obtain ⟨herror, happended⟩ := Scene.renderInto_of_refused hwf heq hlt hbefore hc
        refine ⟨before, c, after, heq, hbefore, hc, fun htext => ?_, herror, happended⟩
        exact List.eq_nil_iff_forall_not_mem.2 fun n hn => hbefore n hn (.inl htext)

/-- A page with an empty division whose id is `app`, and a paragraph and a text that are not in
it. -/
def page : Moment :=
  let s := (((((Scene.empty .off).addNode (.element "body")).2.addNode (.element "div")).2.addNode
    (.element "p")).2.addNode (.text "a")).2.addSlot.2
  ⟨((s.modifyNode 1 (.setAttribute "id" "app")).append 0 1).2, [.code], ⟨[], []⟩⟩

theorem reachable_page : Reachable page :=
  ⟨.off, .tail (.tail
    (.tail (.tail (.tail (.tail (.single (.act (.makeNode _ _))) (.act (.makeNode _ _)))
      (.act (.makeNode _ _))) (.act (.makeNode _ _))) (.act (.makeSlot _)))
      (.act (.setAttribute _ _ _ _)))
    (.act (.append _ 0 (by decide)))⟩

/-- The text is rendered before and after the paragraph and comes last. With the body in the place
of the second text, only the paragraph is rendered. -/
theorem Reachable.render_outcome_of_page : ∃ (m : Moment) (twice above : Element), Reachable m ∧
    twice.nodes = [3, 2, 3] ∧ above.nodes = [2, 0, 3] ∧
    m.scene.render ⟨0⟩ twice "none" = (.error (.rootNotFound "none"), m.scene) ∧
    (m.scene.render ⟨0⟩ twice "app").1 = .ok () ∧
    (m.scene.render ⟨0⟩ twice "app").2.tree.children 1 = [2, 3] ∧
    (m.scene.render ⟨0⟩ above "app").1 = .error (.hierarchy (.intoOwnSubtree 0 1)) ∧
    (m.scene.render ⟨0⟩ above "app").2.tree.children 1 = [2] := by
  let twice : Element := .fragment 0 [.node 3, .node 2, .node 3]
  let above : Element := .fragment 0 [.node 2, .node 0, .node 3]
  have hwf := reachable_page.wellFormed
  have hknown : page.scene.Knows twice ∧ page.scene.Knows above := by
    simp only [twice, above, Scene.Knows, Element.nodes, Element.fragments, flatten,
      collectFragments]
    decide
  have hroot : page.scene.elementById ⟨0⟩ "app" = some 1 := by decide
  have hexists := hwf.findById_eq_some hroot
  have htaken : ∀ n ∈ [3, 2, 3], ¬ page.scene.tree.Refuses 1 n := by
    simp only [hwf.not_refuses_iff]
    decide
  have habove : page.scene.tree.Refuses 1 0 := by
    by_contra hfree
    exact absurd (hwf.not_refuses_iff.1 hfree) (by decide)
  obtain ⟨hnone, -⟩ := reachable_page.render_outcome ⟨0⟩ "none" hknown.1
  obtain ⟨-, htwice, -⟩ := reachable_page.render_outcome ⟨0⟩ "app" hknown.1
  obtain ⟨-, hbroken, -⟩ := reachable_page.render_outcome ⟨0⟩ "app" hknown.2
  obtain ⟨root, hfound, -, -, hok, -⟩ := htwice ⟨1, hexists⟩
  obtain ⟨root', hfound', -, -, -, hstop⟩ := hbroken ⟨1, hexists⟩
  obtain rfl : 1 = root := Option.some.inj (hroot.symm.trans hfound)
  obtain rfl : 1 = root' := Option.some.inj (hroot.symm.trans hfound')
  obtain ⟨hsuccess, -, hchildren⟩ := hok htaken
  obtain ⟨before, c, after, heq, hbefore, hc, -, herror, happended⟩ := hstop ⟨0, by decide, habove⟩
  -- The paragraph is taken and the body is not, so the loop stopped between them.
  obtain ⟨rfl, rfl⟩ : before = [2] ∧ c = 0 := by
    have hnodes : [2, 0, 3] = before ++ c :: after := heq
    rcases before with _ | ⟨a, _ | ⟨b, rest⟩⟩
    · cases hnodes
      exact absurd hc (htaken 2 (by decide))
    · cases hnodes
      exact ⟨rfl, rfl⟩
    · simp only [List.cons_append, List.cons.injEq] at hnodes
      obtain ⟨-, rfl, -⟩ := hnodes
      exact absurd habove (hbefore 0 (by simp))
  refine ⟨page, twice, above, reachable_page, rfl, rfl,
    hnone (hwf.findById_eq_none_iff.1 (by decide)), hsuccess, ?_, herror, ?_⟩
  · rw [hchildren]
    decide
  · rw [Tree.children, ← Scene.node, happended.rows 1]
    decide

end Course

end UiTree
