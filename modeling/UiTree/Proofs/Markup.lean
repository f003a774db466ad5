import UiTree.Proofs.Tree.WellFormed
import UiTree.Tree
set_option autoImplicit false

/-!
Documents: what stands at and below a node, taken out of the table. The markup of a node is its
document written token by token, and a document in normal form is what of it can be seen there:
texts side by side are one text, and an empty text is none.
-/

namespace UiTree

inductive Markup where
  | text (content : String)
  | element (tag : String) (attributes : List (String × String)) (children : List Markup)

mutual

/-- The document at a node. The attributes of a text are no part of it. -/
inductive Tree.Shows (t : Tree) : NodeId → Markup → Prop
  | text {n : NodeId} {content : String} (hk : (t.get n).kind = .text content) :
      Tree.Shows t n (.text content)
  | element {n : NodeId} {tag : String} {docs : List Markup} (hk : (t.get n).kind = .element tag)
      (hc : Tree.ShowAll t (t.children n) docs) :
      Tree.Shows t n (.element tag (t.get n).attributes.entries docs)

inductive Tree.ShowAll (t : Tree) : List NodeId → List Markup → Prop
  | nil : Tree.ShowAll t [] []
  | cons {n : NodeId} {rest : List NodeId} {doc : Markup} {docs : List Markup}
      (hn : Tree.Shows t n doc) (hr : Tree.ShowAll t rest docs) :
      Tree.ShowAll t (n :: rest) (doc :: docs)

end

mutual

theorem Tree.Shows.unique {t : Tree} {n : NodeId} {doc doc' : Markup} (h : t.Shows n doc)
    (h' : t.Shows n doc') : doc = doc' := by
  cases h with
  | text hk =>
    cases h' with
    | text hk' =>
      cases hk.symm.trans hk'
      rfl
    | element hk' hc' => cases hk.symm.trans hk'
  | element hk hc =>
    cases h' with
    | text hk' => cases hk.symm.trans hk'
    | element hk' hc' =>
      cases hk.symm.trans hk'
      rw [hc.unique hc']

theorem Tree.ShowAll.unique {t : Tree} {ns : List NodeId} {docs docs' : List Markup}
    (h : t.ShowAll ns docs) (h' : t.ShowAll ns docs') : docs = docs' := by
  cases h with
  | nil =>
    cases h'
    rfl
  | cons hn hr =>
    cases h' with
    | cons hn' hr' => rw [hn.unique hn', hr.unique hr']

end

inductive Token where
  | start (tag : String) (attributes : List (String × String))
  | stop (tag : String)
  | char (c : Char)
  deriving DecidableEq, Repr

def Token.write : Token → List Char
  | .start tag attributes => '<' :: tag.toList ++ attributes.flatMap Tree.attributeMarkup ++ ['>']
  | .stop tag => '<' :: '/' :: tag.toList ++ ['>']
  | .char c => Text.escapeTextChar c

mutual

def Markup.tokens : Markup → List Token
  | .text content => content.toList.map .char
  | .element tag attributes children => .start tag attributes :: (tokensAll children ++ [.stop tag])

def tokensAll : List Markup → List Token
  | [] => []
  | doc :: rest => doc.tokens ++ tokensAll rest

end

/-- A text before other documents. A text that comes first among them is merged with it. -/
def consText (content : String) : List Markup → List Markup
  | .text next :: rest => .text (content ++ next) :: rest
  | docs => .text content :: docs

mutual

def Markup.normalBefore : Markup → List Markup → List Markup
  | .text content, docs => if content = "" then docs else consText content docs
  | .element tag attributes children, docs => .element tag attributes (normalAll children) :: docs

def normalAll : List Markup → List Markup
  | [] => []
  | doc :: rest => doc.normalBefore (normalAll rest)

end

namespace Tree

/-- Where no way up to the node is as long as the fuel, the node shows a document, and that is what
is written. -/
theorem exists_shows_markupFrom {t : Tree} (h : WellFormed t) (fuel : Nat) (n : NodeId)
    (hup : ∀ k c, t.up k c = some n → k < fuel) :
    ∃ doc, t.Shows n doc ∧ t.markupFrom fuel n = doc.tokens.flatMap Token.write := by
  induction fuel generalizing n with
  | zero => exact absurd (hup 0 n rfl) (Nat.lt_irrefl 0)
  | succ fuel ih =>
    have hall : ∀ cs : List NodeId, (∀ c ∈ cs, t.parent c = some n) →
        ∃ docs, t.ShowAll cs docs ∧
        cs.flatMap (t.markupFrom fuel) = (tokensAll docs).flatMap Token.write := by
      intro cs hcs
      induction cs with
      | nil => exact ⟨[], .nil, rfl⟩
      | cons c rest ihr =>
        -- a way up to the child goes on for one more step
        obtain ⟨doc, hdoc, hwrite⟩ := ih c fun k d hk => by
          have := hup (k + 1) d (up_add hk (up_succ_eq_some.2 ⟨n, hcs c (by simp), rfl⟩))
          omega
        obtain ⟨docs, hdocs, hrest⟩ := ihr fun d hd => hcs d (by simp [hd])
        exact ⟨doc :: docs, .cons hdoc hdocs, by simp [tokensAll, hwrite, hrest]⟩
    cases hk : (t.get n).kind with
    | text content =>
      refine ⟨.text content, .text hk, ?_⟩
      simp [markupFrom, hk, Markup.tokens, Text.escapeText, List.flatMap_map, Token.write]
    | element tag =>
      obtain ⟨docs, hdocs, hwrite⟩ := hall (t.children n) fun c hc => (h.mem_children_iff n c).1 hc
      refine ⟨_, .element hk hdocs, ?_⟩
      simp [markupFrom, hk, Markup.tokens, Token.write, hwrite]

theorem exists_shows_markup {t : Tree} (h : WellFormed t) (n : NodeId) :
    ∃ doc, t.Shows n doc ∧ (t.markup n).toList = doc.tokens.flatMap Token.write := by
  by_cases hn : n < t.size
  · obtain ⟨doc, hdoc, hwrite⟩ :=
      exists_shows_markupFrom h t.size n fun k c hk => h.up_lt_size hn hk
    exact ⟨doc, hdoc, by rw [markup, String.toList_ofList, hwrite]⟩
  · have hget := t.get_of_size_le (Nat.le_of_not_lt hn)
    refine ⟨.text "", .text (by rw [hget]; rfl), ?_⟩
    rw [markup, String.toList_ofList]
    cases t.size with
    | zero => rfl
    | succ fuel =>
      simp [markupFrom, hget, NodeData.absent, NodeData.ofKind, Text.escapeText, Markup.tokens]

end Tree

end UiTree
