import Mathlib.Data.List.Nodup
import UiTree.Proofs.Blueprint.Closing
set_option autoImplicit false

/-!
Every registration of a blueprint is told once, of the nearest host element around it, or it has
none and goes on waiting on the element that was built.

The induction is over the blueprint. Its invariant speaks of the elements built so far: they are new
and do not repeat anything, and what waits on them is what has no host element around it yet.
-/

namespace UiTree

open List (Perm)

namespace Scene

/-- All that was there is there, and what waits on it is the same. -/
structure Keeps (s s' : Scene) : Prop where
  nodes : s.tree.size ≤ s'.tree.size
  slots : s.slots.size ≤ s'.slots.size
  sinks : s.sinks.size ≤ s'.sinks.size
  serials : s.serials ≤ s'.serials
  sink : ∀ id, id < s.sinks.size → s'.sink id = s.sink id
  parent : ∀ n, n < s.tree.size → s'.tree.parent n = s.tree.parent n
  pending : ∀ n, n < s.tree.size → (s'.node n).pending = (s.node n).pending
  slot : ∀ i, i < s.slots.size → s'.slot i = s.slot i

namespace Keeps

theorem refl (s : Scene) : Keeps s s :=
  ⟨Nat.le_refl _, Nat.le_refl _, Nat.le_refl _, Nat.le_refl _, fun _ _ => rfl, fun _ _ => rfl,
    fun _ _ => rfl, fun _ _ => rfl⟩

theorem trans {s s' s'' : Scene} (h : Keeps s s') (h' : Keeps s' s'') : Keeps s s'' where
  nodes := h.nodes.trans h'.nodes
  slots := h.slots.trans h'.slots
  sinks := h.sinks.trans h'.sinks
  serials := h.serials.trans h'.serials
  sink id hid := (h'.sink id (Nat.lt_of_lt_of_le hid h.sinks)).trans (h.sink id hid)
  parent n hn := (h'.parent n (Nat.lt_of_lt_of_le hn h.nodes)).trans (h.parent n hn)
  pending n hn := (h'.pending n (Nat.lt_of_lt_of_le hn h.nodes)).trans (h.pending n hn)
  slot i hi := (h'.slot i (Nat.lt_of_lt_of_le hi h.slots)).trans (h.slot i hi)

end Keeps

/-- The elements were made on the way from one scene to the other, and none of them repeats a node
or a slot. -/
structure Fresh (s s' : Scene) (es : List Element) : Prop where
  nodes_nodup : (flatten es).Nodup
  slots_nodup : (slotsOf es).Nodup
  nodes : ∀ n ∈ flatten es, s.tree.size ≤ n ∧ n < s'.tree.size
  slots : ∀ i ∈ slotsOf es, s.slots.size ≤ i ∧ i < s'.slots.size

theorem Fresh.node_notMem {s s' : Scene} {es : List Element} (h : Fresh s s' es) {n : NodeId}
    (hn : n < s.tree.size) : n ∉ flatten es :=
  fun hm => Nat.not_lt.2 (h.nodes n hm).1 hn

theorem Fresh.slot_notMem {s s' : Scene} {es : List Element} (h : Fresh s s' es) {i : SlotId}
    (hi : i < s.slots.size) : i ∉ slotsOf es :=
  fun hm => Nat.not_lt.2 (h.slots i hm).1 hi

theorem flatten_cons (e : Element) (es : List Element) :
    flatten (e :: es) = flatten [e] ++ flatten es := by
  simp [flatten]

theorem Fresh.cons {s s₁ s₂ : Scene} {e : Element} {es : List Element} (h : Fresh s s₁ [e])
    (h' : Fresh s₁ s₂ es) (hk : Keeps s s₁) (hk' : Keeps s₁ s₂) : Fresh s s₂ (e :: es) := by
  refine ⟨?_, ?_, fun n hn => ?_, fun i hi => ?_⟩
  · rw [flatten_cons]
    refine List.nodup_append.2 ⟨h.nodes_nodup, h'.nodes_nodup, fun n hn m hm => ?_⟩
    exact Nat.ne_of_lt (Nat.lt_of_lt_of_le (h.nodes n hn).2 (h'.nodes m hm).1)
  · rw [slotsOf_cons]
    refine List.nodup_append.2 ⟨h.slots_nodup, h'.slots_nodup, fun i hi j hj => ?_⟩
    exact Nat.ne_of_lt (Nat.lt_of_lt_of_le (h.slots i hi).2 (h'.slots j hj).1)
  · rw [flatten_cons, List.mem_append] at hn
    rcases hn with hn | hn
    · exact ⟨(h.nodes n hn).1, Nat.lt_of_lt_of_le (h.nodes n hn).2 hk'.nodes⟩
    · exact ⟨Nat.le_trans hk.nodes (h'.nodes n hn).1, (h'.nodes n hn).2⟩
  · rw [slotsOf_cons, List.mem_append] at hi
    rcases hi with hi | hi
    · exact ⟨(h.slots i hi).1, Nat.lt_of_lt_of_le (h.slots i hi).2 hk'.slots⟩
    · exact ⟨Nat.le_trans hk.slots (h'.slots i hi).1, (h'.slots i hi).2⟩

theorem pendingOn_cons (s : Scene) (e : Element) (es : List Element) :
    Perm (s.pendingOn (e :: es)) (s.pendingOn [e] ++ s.pendingOn es) := by
  simp only [pendingOn, flatten_cons e es, slotsOf_cons e es, List.flatMap_append,
    List.append_assoc]
  exact .append_left _ (List.perm_append_comm_assoc _ _ _)

end Scene

open Scene Built

/-- What was built, with the state in which it began and the state in which it ended. -/
structure Evolves (w w' : World Log) (ts : List Built) : Prop where
  keeps : w.scene.Keeps w'.scene
  fresh : w.scene.Fresh w'.scene (elements ts)
  waits : Perm ((w'.scene.pendingOn (elements ts)).map (·.answer)) (untold (registeredAll none ts))
  calls : ∃ calls, w'.program = w.program ++ calls ∧ Perm calls (told (registeredAll none ts))
  answers_nodup : ((registeredAll none ts).map Prod.fst).Nodup
  answers_new : ∀ a ∈ (registeredAll none ts).map Prod.fst, w.scene.serials ≤ a.serial ∧
    a.serial < w'.scene.serials

namespace Evolves

theorem nil (w : World Log) : Evolves w w [] where
  keeps := .refl _
  fresh := by constructor <;> simp [elements, flatten, slotsOf, collectFragments]
  waits := .refl _
  calls := ⟨[], by simp, .refl _⟩
  answers_nodup := List.nodup_nil
  answers_new := by simp [registeredAll]

theorem registeredAll_singleton (around : Option NodeId) (t : Built) :
    registeredAll around [t] = t.registered around := by
  simp [registeredAll]

theorem cons {w w₁ w₂ : World Log} {t : Built} {ts : List Built} (h : Evolves w w₁ [t])
    (h' : Evolves w₁ w₂ ts) : Evolves w w₂ (t :: ts) := by
  obtain ⟨calls, hprogram, hcalls⟩ := h.calls
  obtain ⟨calls', hprogram', hcalls'⟩ := h'.calls
  have hwaits := h.waits
  have hnodup := h.answers_nodup
  have hnew := h.answers_new
  rw [registeredAll_singleton] at hcalls hwaits hnodup hnew
  have hsame : w₂.scene.pendingOn [t.element] = w₁.scene.pendingOn [t.element] :=
    pendingOn_congr (fun n hn => h'.keeps.pending n (h.fresh.nodes n hn).2)
      fun i hi => h'.keeps.slot i (h.fresh.slots i hi).2
  refine ⟨h.keeps.trans h'.keeps, h.fresh.cons h'.fresh h.keeps h'.keeps, ?_, ?_, ?_, ?_⟩
  · refine ((w₂.scene.pendingOn_cons t.element (elements ts)).map _).trans ?_
    rw [List.map_append, registeredAll, untold_append, hsame]
    exact hwaits.append h'.waits
  · refine ⟨calls ++ calls', by rw [hprogram', hprogram, List.append_assoc], ?_⟩
    rw [registeredAll, told_append]
    exact hcalls.append hcalls'
  · rw [registeredAll, List.map_append]
    refine List.nodup_append.2 ⟨hnodup, h'.answers_nodup, fun a ha a' ha' heq => ?_⟩
    have hlt := Nat.lt_of_lt_of_le (hnew a ha).2 (h'.answers_new a' ha').1
    rw [heq] at hlt
    exact Nat.lt_irrefl _ hlt
  · intro a ha
    rw [registeredAll, List.map_append, List.mem_append] at ha
    rcases ha with ha | ha
    · exact ⟨(hnew a ha).1, Nat.lt_of_lt_of_le (hnew a ha).2 h'.keeps.serials⟩
    · exact ⟨Nat.le_trans h.keeps.serials (h'.answers_new a ha).1, (h'.answers_new a ha).2⟩

theorem keeps_close {w w₁ w₂ : World Log} {ts : List Built} (h : Evolves w w₁ ts)
    {answer : Option Answer} {e : Element} (hc : Closes w₁ w₂ (elements ts) answer e) :
    w.scene.Keeps w₂.scene where
  nodes := h.keeps.nodes.trans hc.nodes_le
  slots := h.keeps.slots.trans hc.slots_le
  sinks := h.keeps.sinks.trans hc.sinks_le
  serials := h.keeps.serials.trans hc.serials_le
  sink id hid :=
    (hc.sink_other id (Nat.lt_of_lt_of_le hid h.keeps.sinks)).trans (h.keeps.sink id hid)
  parent n hn := by
    rw [hc.parent_other n (Nat.lt_of_lt_of_le hn h.keeps.nodes) (h.fresh.node_notMem hn),
      h.keeps.parent n hn]
  pending n hn := by
    rw [hc.pending_other n (Nat.lt_of_lt_of_le hn h.keeps.nodes) (h.fresh.node_notMem hn),
      h.keeps.pending n hn]
  slot i hi := by
    rw [hc.slot_other i (Nat.lt_of_lt_of_le hi h.keeps.slots) (h.fresh.slot_notMem hi),
      h.keeps.slot i hi]

theorem fresh_close {w w₁ w₂ : World Log} {ts : List Built} (h : Evolves w w₁ ts)
    {answer : Option Answer} {e : Element} (hc : Closes w₁ w₂ (elements ts) answer e) :
    w.scene.Fresh w₂.scene [e] := by
  have hflat : flatten [e] = e.nodes := by simp [flatten]
  refine ⟨?_, ?_, fun n hn => ?_, fun i hi => ?_⟩
  · rw [hflat]
    rcases hc.nodes with hnodes | ⟨n, hnodes, -⟩
    · exact hnodes ▸ h.fresh.nodes_nodup
    · rw [hnodes]
      exact List.nodup_singleton n
  · rcases hc.slots with hslots | ⟨i, old, hslots, hold, hge, -⟩
    · rw [hslots]
      exact List.nodup_nil
    · rw [hslots]
      refine List.nodup_cons.2 ⟨fun hm => ?_, h.fresh.slots_nodup.sublist hold⟩
      exact Nat.lt_irrefl _ (Nat.lt_of_lt_of_le (h.fresh.slots i (hold.subset hm)).2 hge)
  · rw [hflat] at hn
    rcases hc.nodes with hnodes | ⟨m, hnodes, hge, hlt⟩
    · rw [hnodes] at hn
      exact ⟨(h.fresh.nodes n hn).1, Nat.lt_of_lt_of_le (h.fresh.nodes n hn).2 hc.nodes_le⟩
    · rw [hnodes, List.mem_singleton] at hn
      rw [hn]
      exact ⟨Nat.le_trans h.keeps.nodes hge, hlt⟩
  · rcases hc.slots with hslots | ⟨j, old, hslots, hold, hge, hlt⟩
    · rw [hslots] at hi
      cases hi
    · rw [hslots, List.mem_cons] at hi
      rcases hi with rfl | hi
      · exact ⟨Nat.le_trans h.keeps.slots hge, hlt⟩
      · have hi := h.fresh.slots i (hold.subset hi)
        exact ⟨hi.1, Nat.lt_of_lt_of_le hi.2 hc.slots_le⟩

theorem fst_registeredAll (around : Option NodeId) (ts : List Built) :
    (registeredAll around ts).map Prod.fst = (registeredAll none ts).map Prod.fst := by
  cases around with
  | none => rfl
  | some n =>
    rw [registeredAll_some, List.map_map]
    rfl

theorem close {w w₁ w₂ : World Log} {ts : List Built} (h : Evolves w w₁ ts) {answer : Option Answer}
    {e : Element} (hc : Closes w₁ w₂ (elements ts) answer e) :
    Evolves w w₂ [.made answer e ts] := by
  have hregistered : registeredAll none [.made answer e ts] =
      answer.toList.map (fun a => (a, none)) ++ registeredAll e.node? ts := by
    simp [registeredAll, registered]
  have hanswers : (registeredAll none [.made answer e ts]).map Prod.fst =
      answer.toList ++ (registeredAll none ts).map Prod.fst := by
    rw [hregistered, List.map_append, fst_registeredAll, List.map_map]
    cases answer <;> rfl
  have hown : untold (answer.toList.map fun a => (a, none)) = answer.toList := by
    cases answer <;> rfl
  have hown' : told (answer.toList.map fun a => (a, none)) = [] := by cases answer <;> rfl
  obtain ⟨calls, hprogram, hcalls⟩ := h.calls
  obtain ⟨calls', hprogram', hcalls'⟩ := hc.calls
  have hwaits := hc.waits
  refine ⟨h.keeps_close hc, h.fresh_close hc, ?_, ⟨calls ++ calls', ?_, ?_⟩, ?_, ?_⟩
  · rw [hregistered, untold_append, hown]
    refine hwaits.trans (.append_left _ ?_)
    cases e with
    | node n =>
      rw [Element.node?, registeredAll_some, untold_within]
      exact .refl _
    | fragment slot items => exact h.waits
  · rw [hprogram', hprogram, List.append_assoc]
  · rw [hregistered, told_append, hown', List.nil_append]
    cases e with
    | node n =>
      have hnow : Perm calls' ((untold (registeredAll none ts)).map (·, n)) := by
        refine hcalls'.trans ?_
        have hmap := h.waits.map fun a => (a, n)
        simpa [Element.node?, Function.comp_def] using hmap
      rw [Element.node?, registeredAll_some]
      exact (hcalls.append hnow).trans (told_within n _).symm
    | fragment slot items =>
      have hnone : calls' = [] := List.perm_nil.1 hcalls'
      rw [hnone, List.append_nil]
      exact hcalls
  · rw [hanswers]
    refine List.nodup_append.2 ⟨by cases answer <;> simp, h.answers_nodup,
      fun a ha a' ha' heq => ?_⟩
    have hlt := Nat.lt_of_lt_of_le (h.answers_new a' ha').2
      (hc.answer_new a (Option.mem_toList.1 ha)).1
    rw [heq] at hlt
    exact Nat.lt_irrefl _ hlt
  · intro a ha
    rw [hanswers, List.mem_append] at ha
    rcases ha with ha | ha
    · have hnew := hc.answer_new a (Option.mem_toList.1 ha)
      exact ⟨Nat.le_trans h.keeps.serials hnew.1, hnew.2⟩
    · exact ⟨(h.answers_new a ha).1, Nat.lt_of_lt_of_le (h.answers_new a ha).2 hc.serials_le⟩

end Evolves

section

variable (engine : Engine) (plan : Component → Plan)

mutual

theorem Blueprint.build_evolves (b : Blueprint) (w : World Log) :
    ∃ t w', b.build engine plan w = (.ok t, w') ∧ b.Became plan t ∧ Evolves w w' [t] := by
  cases b with
  | text content => exact ⟨_, _, rfl, ⟨_, rfl⟩, (Evolves.nil w).close (closes_text w content)⟩
  | host tag config items =>
    obtain ⟨ts, w₁, hitems, hts, h⟩ := Blueprint.buildAll_evolves items w
    have hnodes := fun n hn => (h.fresh.nodes n hn).2
    obtain ⟨w₂, hcreate, hhost⟩ :=
      Engine.create_tag_of_records (records_performing plan) engine tag config.sound hnodes
    refine ⟨_, w₂, ?_, ⟨_, ts, rfl, hts⟩,
      h.close (closes_host hhost h.fresh.nodes_nodup h.fresh.slots_nodup hnodes)⟩
    rw [Blueprint.build, hitems]
    simp only [hcreate]
  | fragment items =>
    obtain ⟨ts, w₁, hitems, hts, h⟩ := Blueprint.buildAll_evolves items w
    refine ⟨_, _, ?_, ⟨_, ts, rfl, hts⟩, h.close (closes_fragment w₁ (elements ts))⟩
    rw [Blueprint.build, hitems]
    rfl
  | component c config items =>
    obtain ⟨ts, w₁, hitems, hts, h⟩ := Blueprint.buildAll_evolves items w
    obtain ⟨e, w₂, hcreate, hshape, hcloses⟩ :=
      closes_component engine plan c config h.fresh.nodes_nodup
      h.fresh.slots_nodup (fun n hn => (h.fresh.nodes n hn).2) fun i hi => (h.fresh.slots i hi).2
    refine ⟨_, w₂, ?_, ⟨_, e, ts, rfl, hshape, hts⟩, h.close hcloses⟩
    rw [Blueprint.build, hitems]
    simp only [hcreate]

theorem Blueprint.buildAll_evolves (bs : List Blueprint) (w : World Log) :
    ∃ ts w', Blueprint.buildAll engine plan bs w = (.ok ts, w') ∧ Blueprint.BecameAll plan bs ts ∧
      Evolves w w' ts := by
  cases bs with
  | nil => exact ⟨[], w, by rw [Blueprint.buildAll], rfl, .nil w⟩
  | cons b rest =>
    obtain ⟨t, w₁, hb, ht, h⟩ := Blueprint.build_evolves b w
    obtain ⟨ts, w₂, hrest, hts, h'⟩ := Blueprint.buildAll_evolves rest w₁
    refine ⟨t :: ts, w₂, ?_, ⟨t, ts, rfl, ht, hts⟩, h.cons h'⟩
    rw [Blueprint.buildAll, hb]
    simp only [hrest]

end

end

theorem mem_told {rs : List (Answer × Option NodeId)} {a : Answer} {n : NodeId} :
    (a, n) ∈ told rs ↔ (a, some n) ∈ rs := by
  simp [told]

theorem mem_untold {rs : List (Answer × Option NodeId)} {a : Answer} : a ∈ untold rs ↔
    (a, none) ∈ rs := by
  simp [untold]

theorem fst_told (rs : List (Answer × Option NodeId)) :
    (told rs).map Prod.fst = (rs.filter fun r => r.2.isSome).map Prod.fst := by
  induction rs with
  | nil => rfl
  | cons r rest ih =>
    obtain ⟨a, around⟩ := r
    cases around <;> simpa [told] using ih

theorem filter_eq_singleton {calls : Log} (hd : (calls.map Prod.fst).Nodup) {a : Answer}
    {n : NodeId} (hm : (a, n) ∈ calls) : calls.filter (fun c => c.1 = a) = [(a, n)] := by
  induction calls with
  | nil => cases hm
  | cons c rest ih =>
    obtain ⟨hc, hrest⟩ := List.nodup_cons.1 hd
    rcases List.mem_cons.1 hm with rfl | hm
    · have hnone : rest.filter (fun c => c.1 = a) = [] :=
        List.filter_eq_nil_iff.2 fun d hd hda => hc (List.mem_map.2 ⟨d, hd, by simpa using hda⟩)
      simp [hnone]
    · have hne : c.1 ≠ a := fun h => hc (h ▸ List.mem_map.2 ⟨(a, n), hm, rfl⟩)
      simpa [hne] using ih hrest hm

/-- A blueprint can always be built. Each of its registrations is then told exactly once, of the
nearest host element around it; one that has none is never told, and it waits on the element that
was built. Nothing else is told. -/
theorem Blueprint.build_tells_nearest (engine : Engine) (plan : Component → Plan) (b : Blueprint)
    (w : World Log) : ∃ t w' calls, b.build engine plan w = (.ok t, w') ∧ b.Became plan t ∧
      w'.program = w.program ++ calls ∧ ((t.registered none).map Prod.fst).Nodup ∧
      (∀ a n, (a, some n) ∈ t.registered none → calls.filter (fun c => c.1 = a) = [(a, n)]) ∧
      (∀ a, (a, none) ∈ t.registered none → (∀ n, (a, n) ∉ calls) ∧
        ((w'.scene.pendingOn [t.element]).map (·.answer)).count a = 1) ∧
      ∀ a n, (a, n) ∈ calls → (a, some n) ∈ t.registered none := by
  obtain ⟨t, w', hbuild, hbecame, h⟩ := b.build_evolves engine plan w
  obtain ⟨calls, hprogram, hcalls⟩ := h.calls
  have hnodup := h.answers_nodup
  have hwaits := h.waits
  rw [Evolves.registeredAll_singleton] at hcalls hnodup hwaits
  have htold : ((told (t.registered none)).map Prod.fst).Nodup := by
    rw [fst_told]
    exact hnodup.sublist (List.filter_sublist.map _)
  have hmade : ∀ a n, (a, n) ∈ calls → (a, some n) ∈ t.registered none :=
    fun a n hm => mem_told.1 (hcalls.mem_iff.1 hm)
  refine ⟨t, w', calls, hbuild, hbecame, hprogram, hnodup, fun a n hm => ?_,
    fun a hm => ⟨fun n hcall => ?_, ?_⟩, hmade⟩
  · have hone := filter_eq_singleton htold (mem_told.2 hm)
    exact List.perm_singleton.1 (hone ▸ hcalls.filter _)
  · have heq := List.inj_on_of_nodup_map hnodup hm (hmade a n hcall) rfl
    cases heq
  · have huntold : (untold (t.registered none)).Nodup := hnodup.sublist (List.filter_sublist.map _)
    rw [show elements [t] = [t.element] from rfl] at hwaits
    rw [hwaits.count_eq]
    exact List.count_eq_one_of_mem huntold (mem_untold.2 hm)

end UiTree
