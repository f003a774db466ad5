import Mathlib.Algebra.Order.BigOperators.Group.Finset
import UiTree.Proofs.Course.Turns
import UiTree.Proofs.Notices.Count
set_option autoImplicit false

/-!
No notice is lost and none is doubled. From the moment in which a notice is taken out of a sink it
stands in exactly one place: on a node, in a slot, with a delivery under way, or among those that
were told. A step may move it from one of them to another; what was told stays told.

The invariant counts. For every notice, the number of places in which it stands is the number of
times it was taken, and it is taken or offered at most once, since every offer has a serial number
of its own.
-/

namespace UiTree

theorem not_mem_of_occurrences {rows : Nat → List Notice} {k : Nat} {x : Notice}
    (hend : ∀ i, k ≤ i → rows i = []) (h : occurrences rows k x = 0) (i : Nat) : x ∉ rows i := by
  intro hx
  rcases Nat.lt_or_ge i k with hi | hi
  · have hzero := Finset.sum_eq_zero_iff.1 h i (Finset.mem_range.2 hi)
    exact List.count_eq_zero.1 hzero hx
  · rw [hend i hi] at hx
    cases hx

theorem exists_of_occurrences {rows : Nat → List Notice} {k : Nat} {x : Notice}
    (hend : ∀ i, k ≤ i → rows i = []) (h : occurrences rows k x = 1) : ∃ i, (rows i).count x = 1 ∧
      ∀ j, j ≠ i → x ∉ rows j := by
  obtain ⟨i, hi, hne⟩ :=
    Finset.exists_ne_zero_of_sum_ne_zero (f := fun i => (rows i).count x) (s := Finset.range k)
    (by rw [show ∑ i ∈ Finset.range k, (rows i).count x = 1 from h]; exact Nat.one_ne_zero)
  have hsplit := Finset.add_sum_erase (Finset.range k) (fun i => (rows i).count x) hi
  have hrest : ∑ j ∈ (Finset.range k).erase i, (rows j).count x = 0 := by
    unfold occurrences at h
    omega
  refine ⟨i, ?_, fun j hj hx => ?_⟩
  · unfold occurrences at h
    omega
  · rcases Nat.lt_or_ge j k with hk | hk
    · have hzero :=
        Finset.sum_eq_zero_iff.1 hrest j (Finset.mem_erase.2 ⟨hj, Finset.mem_range.2 hk⟩)
      exact List.count_eq_zero.1 hzero hx
    · rw [hend j hk] at hx
      cases hx

namespace Scene

/-- How often a notice can have been offered: once if its serial number was given away, and never
before that. -/
def made (s : Scene) (x : Notice) : Nat := if x.serial < s.serials then 1 else 0

theorem made_le_made {s s' : Scene} (h : s.serials ≤ s'.serials) (x : Notice) :
    s.made x ≤ s'.made x := by
  unfold made
  split
  · rw [if_pos (by omega)]
  · exact Nat.zero_le _

theorem made_le_one (s : Scene) (x : Notice) : s.made x ≤ 1 := by
  unfold made
  split <;> omega

end Scene

namespace Course

open Scene (SameNotices)

def heldAt (frames : List Frame) (k : Nat) : List Notice := (frames[k]?.map Frame.held).getD []

theorem heldAt_of_length_le (frames : List Frame) (k : Nat) (h : frames.length ≤ k) :
    heldAt frames k = [] := by
  simp [heldAt, h]

def held (frames : List Frame) (x : Notice) : Nat := occurrences (heldAt frames) frames.length x

@[simp] theorem held_cons (f : Frame) (ks : List Frame) (x : Notice) :
    held (f :: ks) x = f.held.count x + held ks x := by
  unfold held occurrences
  rw [List.length_cons, Finset.sum_range_succ', Nat.add_comm]
  rfl

namespace Ledger

def tellings (l : Ledger) (x : Notice) : Nat := (l.told.map Prod.fst).count x

theorem tellings_tell (l : Ledger) (n : Notice) (p : NodeId) (x : Notice) :
    (l.tell n p).tellings x = l.tellings x + [n].count x := by
  simp [tellings, tell]

end Ledger

/-- The count of one notice at a moment. -/
structure Balanced (m : Moment) (x : Notice) : Prop where
  places : m.scene.waiting x + held m.frames x + m.ledger.tellings x = m.ledger.taken.count x
  once : m.ledger.taken.count x + m.scene.offered x ≤ m.scene.made x

/-- An operation either leaves all notices where they are, or it offers one with the next serial
number. -/
theorem Act.sameNotices_or_offer {s s' : Scene} (h : Act s s') :
    SameNotices s s' ∨ ∃ cur answer,
      s' = s.takeSerial.2.modifySink cur fun k =>
        { k with notice := some ⟨s.serials, answer⟩ } := by
  cases h with
  | makeNode kind => exact .inl (s.sameNotices_addNode kind)
  | append p hc => exact .inl (s.sameNotices_append p _)
  | detach n => exact .inl (s.sameNotices_detach n)
  | setTextContent n text => exact .inl (s.sameNotices_setTextContent n text)
  | setAttribute | removeAttribute | listen | setMethod =>
    exact .inl (s.sameNotices_modifyNode _ _ fun _ => rfl)
  | renderInto root he => exact .inl (s.sameNotices_renderInto root _)
  | render doc id he => exact .inl (s.sameNotices_render doc _ id)
  | makeSlot => exact .inl s.sameNotices_addSlot
  | makeSink => exact .inl s.sameNotices_addSink
  | makeRefs | makeFlag | stop | journal => exact .inl (.of_eq rfl rfl rfl (Nat.le_refl _))
  | takeSerial => exact .inl (.of_eq rfl rfl rfl (Nat.le_succ _))
  | offerMethod id name c =>
    unfold Scene.offerMethod
    split
    · exact .inr ⟨id, .method c, rfl⟩
    · exact .inl (s.sameNotices_modifySink id _ fun _ => rfl)
  | offerNotice id c => exact .inr ⟨id, .callback c, rfl⟩
  | letGo kept => exact .inl (.tree (.prune s.tree kept))

namespace Balanced

theorem start (level : Level) (x : Notice) : Balanced (.start level) x :=
  ⟨rfl, Nat.zero_le _⟩

/-- Only the counts matter, and serial numbers may be given away. -/
theorem congr {m m' : Moment} {x : Notice} (h : Balanced m x) (hs : SameNotices m.scene m'.scene)
    (hf : held m'.frames x = held m.frames x) (hl : m'.ledger = m.ledger) : Balanced m' x := by
  obtain ⟨hplaces, honce⟩ := h
  refine ⟨?_, ?_⟩
  · rw [hs.waiting_eq, hf, hl]
    exact hplaces
  · rw [hs.offered_eq, hl]
    exact Nat.le_trans honce (Scene.made_le_made hs.serials x)

theorem act {s s' : Scene} {ks : List Frame} {l : Ledger} {x : Notice} (h : Balanced ⟨s, ks, l⟩ x)
    (ha : Act s s') : Balanced ⟨s', ks, l⟩ x := by
  rcases ha.sameNotices_or_offer with hs | ⟨cur, answer, rfl⟩
  · exact h.congr hs rfl rfl
  · obtain ⟨hplaces, honce⟩ := h
    refine ⟨hplaces, ?_⟩
    have hoffer := s.takeSerial.2.offered_offer_le cur ⟨s.serials, answer⟩ x
    have hsame : s.takeSerial.2.offered x = s.offered x := rfl
    have hmade : s.made x + [(⟨s.serials, answer⟩ : Notice)].count x ≤
        (s.takeSerial.2.modifySink cur fun k => { k with notice := some ⟨s.serials, answer⟩ }).made
        x := by
      by_cases hx : x = ⟨s.serials, answer⟩
      · simp [hx, Scene.made, Scene.takeSerial, Scene.modifySink]
      · have hcount : [(⟨s.serials, answer⟩ : Notice)].count x = 0 := by simp [Ne.symm hx]
        rw [hcount]
        exact Scene.made_le_made (Nat.le_succ s.serials) x
    simp only at honce ⊢
    omega

/-- A delivery moves what it collects either into its own hands or into the slot of the result. -/
theorem deliver {m : Moment} {x : Notice} (h : Balanced m x) {result : Element}
    (hk : m.scene.Knows result) (nodes : List NodeId) (slots : List SlotId) :
    Balanced (m.deliver result nodes slots) x := by
  have hcollect := m.scene.waiting_collect result nodes slots x
  have hknown := (m.scene.extends_collect result nodes slots).knows hk
  have hannounce := Scene.waiting_announce hknown (m.scene.collect result nodes slots).1 x
  have hoffers := (m.scene.sameOffers_collect result nodes slots).trans
    (Scene.sameOffers_announce _ result (m.scene.collect result nodes slots).1)
  obtain ⟨hplaces, honce⟩ := h
  refine ⟨?_, ?_⟩
  · cases result with
    | node p =>
      simp only [Element.isFragment, Element.fragment?, Option.isSome_none, Bool.false_eq_true,
        if_false, List.count_nil] at hannounce
      simp only [Moment.deliver, held_cons, Frame.held]
      omega
    | fragment slot items =>
      simp only [Element.isFragment, Element.fragment?, Option.isSome_some, if_true] at hannounce
      simp only [Moment.deliver]
      omega
  · simp only [Moment.deliver, hoffers.offered_eq]
    exact Nat.le_trans honce (Scene.made_le_made (Nat.le_of_eq hoffers.2.symm) x)

theorem settle {s : Scene} {ks : List Frame} {l : Ledger} {x : Notice} (h : Balanced ⟨s, ks, l⟩ x)
    {result : Element} (hk : s.Knows result) (name : Option String) (request : Option RefRequest)
    (cur : SinkId) :
    Balanced (Moment.settle ⟨s, ks, l⟩ cur (s.settle name request cur result).2) x := by
  obtain ⟨hwait, hoffer, hserials⟩ := Scene.counts_settle hk name request cur x
  obtain ⟨hplaces, honce⟩ := h
  simp only at hplaces honce
  have htell : (Moment.settle ⟨s, ks, l⟩ cur
      (s.settle name request cur result).2).ledger.tellings x = l.tellings x := rfl
  refine ⟨?_, ?_⟩
  · rw [htell]
    simp only [Moment.settle, List.count_append]
    omega
  · have hmade := Scene.made_le_made hserials x
    simp only [Moment.settle, List.count_append]
    omega

end Balanced

theorem Step.balanced {m m' : Moment} (hs : Step m m') {x : Notice} (h : Balanced m x) :
    Balanced m' x := by
  cases hs with
  | act ha => exact h.act ha
  | @build s s' ks l engine name config children n hc hb =>
    have hbuilt : Balanced ⟨s', .code :: ks, l⟩ x := h.congr (Scene.sameNotices_of_build hb) rfl rfl
    exact hbuilt.deliver (Scene.knows_of_build hb) _ _
  | buildFails engine name config hc hb => exact h.congr (Scene.sameNotices_of_build hb) rfl rfl
  | call s ks l c hc hr => exact h.congr (s.sameNotices_enter c _) (by simp [Frame.held]) rfl
  | bodyFails s ks => exact h.congr (.refl s) (by simp [Frame.held]) rfl
  | @bodyReturns s s' ks l name request cur nodes slots result hk hset =>
    have hbelow : Balanced ⟨s, ks, l⟩ x := h.congr (.refl s) (by simp [Frame.held]) rfl
    have hsettled := hbelow.settle hk name request cur
    have hknown := (s.extends_settle name request cur result).knows hk
    rw [hset] at hsettled hknown
    exact hsettled.deliver hknown _ _
  | @bodyRefused s s' ks l name request cur nodes slots result e hk hset =>
    have hbelow : Balanced ⟨s, ks, l⟩ x := h.congr (.refl s) (by simp [Frame.held]) rfl
    have hsettled := hbelow.settle hk name request cur
    rwa [hset] at hsettled
  | tell s ks l p n left =>
    obtain ⟨hplaces, honce⟩ := h
    have htell := l.tellings_tell n p x
    have hcount : (n :: left).count x = [n].count x + left.count x := by
      simp [List.count_cons, Nat.add_comm]
    refine ⟨?_, honce⟩
    simp only [held_cons, Frame.held, List.count_nil] at hplaces ⊢
    change _ = l.taken.count x
    omega
  | answered s | delivered s | heard s | hear s | dispatched =>
    exact h.congr (.refl _) (by simp [Frame.held]) rfl
  | dispatch s =>
    exact h.congr (.of_eq rfl rfl rfl (Nat.le_refl _)) (by simp [Moment.arrive, Frame.held]) rfl
  | rise => exact h.congr (.refl _) (by simp [Moment.arrive, Frame.held]) rfl

theorem Reachable.balanced {m : Moment} (h : Reachable m) (x : Notice) : Balanced m x := by
  obtain ⟨level, hs⟩ := h
  induction hs with
  | refl => exact .start level x
  | tail _ hlast ih => exact hlast.balanced ih

/-- Where a notice can be that was taken out of a sink. -/
inductive Place where
  | node (n : NodeId)
  | slot (id : SlotId)
  -- In the hands of the delivery that is the `k`-th call under way.
  | delivery (k : Nat)
  | told

def Moment.at (m : Moment) : Place → List Notice
  | .node n => (m.scene.node n).pending
  | .slot id => m.scene.slot id
  | .delivery k => heldAt m.frames k
  | .told => m.ledger.told.map Prod.fst

/-- A notice that is counted once stands in one place. -/
theorem Moment.exists_place {m : Moment} {x : Notice}
    (h : m.scene.waiting x + held m.frames x + m.ledger.tellings x = 1) :
    ∃ p, (m.at p).count x = 1 ∧ ∀ q, q ≠ p → x ∉ m.at q := by
  have hnode : m.scene.onNodes x = 0 → ∀ n, x ∉ (m.scene.node n).pending :=
    not_mem_of_occurrences m.scene.pending_of_size_le
  have hslot : m.scene.inSlots x = 0 → ∀ id, x ∉ m.scene.slot id :=
    not_mem_of_occurrences m.scene.slot_of_size_le
  have hdelivery : held m.frames x = 0 → ∀ k, x ∉ heldAt m.frames k :=
    not_mem_of_occurrences (heldAt_of_length_le m.frames)
  have htold : m.ledger.tellings x = 0 → x ∉ m.ledger.told.map Prod.fst := List.count_eq_zero.1
  unfold Scene.waiting at h
  have hcases : m.scene.onNodes x = 1 ∨ m.scene.inSlots x = 1 ∨ held m.frames x = 1 ∨
      m.ledger.tellings x = 1 := by
    omega
  rcases hcases with h1 | h1 | h1 | h1
  · obtain ⟨n, hn, hothers⟩ := exists_of_occurrences m.scene.pending_of_size_le h1
    refine ⟨.node n, hn, fun q hq => ?_⟩
    cases q with
    | node j => exact hothers j fun hj => hq (hj ▸ rfl)
    | slot j => exact hslot (by omega) j
    | delivery k => exact hdelivery (by omega) k
    | told => exact htold (by omega)
  · obtain ⟨i, hi, hothers⟩ := exists_of_occurrences m.scene.slot_of_size_le h1
    refine ⟨.slot i, hi, fun q hq => ?_⟩
    cases q with
    | node j => exact hnode (by omega) j
    | slot j => exact hothers j fun hj => hq (hj ▸ rfl)
    | delivery k => exact hdelivery (by omega) k
    | told => exact htold (by omega)
  · obtain ⟨i, hi, hothers⟩ := exists_of_occurrences (heldAt_of_length_le m.frames) h1
    refine ⟨.delivery i, hi, fun q hq => ?_⟩
    cases q with
    | node j => exact hnode (by omega) j
    | slot j => exact hslot (by omega) j
    | delivery k => exact hothers k fun hk => hq (hk ▸ rfl)
    | told => exact htold (by omega)
  · refine ⟨.told, h1, fun q hq => ?_⟩
    cases q with
    | node j => exact hnode (by omega) j
    | slot j => exact hslot (by omega) j
    | delivery k => exact hdelivery (by omega) k
    | told => exact absurd rfl hq

theorem Reachable.conserved {m m' : Moment} (h : Reachable m) (hs : Steps m m') :
    (∀ x ∈ m.ledger.taken, ∃ p, (m'.at p).count x = 1 ∧ ∀ q, q ≠ p → x ∉ m'.at q) ∧
      (∀ x, (m'.at .told).count x ≤ 1) ∧ m.ledger.told <+: m'.ledger.told := by
  have hlater : Reachable m' := h.imp fun _ hstart => hstart.trans hs
  refine ⟨fun x hx => ?_, fun x => ?_, hs.ledger_grows.2⟩
  · have htaken : 0 < m'.ledger.taken.count x :=
      List.count_pos_iff.2 (hs.ledger_grows.1.subset hx)
    obtain ⟨hplaces, honce⟩ := hlater.balanced x
    have hmade := m'.scene.made_le_one x
    exact Moment.exists_place (by omega)
  · obtain ⟨hplaces, honce⟩ := hlater.balanced x
    have hmade := m'.scene.made_le_one x
    change m'.ledger.tellings x ≤ 1
    omega

variable {ω : Type} {b : Behaviours ω} {inOrder : World ω → Prop} {fit : Scene → Config → Prop}
  {a : Account ω}

end Course

end UiTree
