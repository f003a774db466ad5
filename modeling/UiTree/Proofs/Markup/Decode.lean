import UiTree.Proofs.Markup
import UiTree.Proofs.Text.Escape
import UiTree.Proofs.TreeInvariant
set_option autoImplicit false

/-!
Markup can be read back. A scanner cuts it into tokens, and from these the documents are put
together from the end backwards, so that a closing tag waits for the tag that opens it. On the
markup of a node this gives the normal form of its document, whatever its texts and attribute values
are.
-/

namespace UiTree

def reserved : List Char := [' ', '<', '>', '/', '=', '"']

def PlainName (name : String) : Prop := ∀ c ∈ name.toList, c ∉ reserved

theorem PlainName.ne {name : String} (h : PlainName name) {c : Char} (hc : c ∈ reserved) :
    ∀ d ∈ name.toList, d ≠ c :=
  fun d hd hdc => h d hd (hdc ▸ hc)

mutual

def Markup.Plain : Markup → Prop
  | .text _ => True
  | .element tag attributes children =>
    PlainName tag ∧ (∀ a ∈ attributes, PlainName a.1) ∧ PlainAll children

def PlainAll : List Markup → Prop
  | [] => True
  | doc :: rest => doc.Plain ∧ PlainAll rest

end

def Token.Plain : Token → Prop
  | .start tag attributes => PlainName tag ∧ ∀ a ∈ attributes, PlainName a.1
  | .stop tag => PlainName tag
  | .char _ => True

mutual

theorem Markup.Plain.tokens {doc : Markup} (h : doc.Plain) : ∀ token ∈ doc.tokens, token.Plain := by
  intro token ht
  cases doc with
  | text content =>
    obtain ⟨c, -, rfl⟩ := List.mem_map.1 ht
    trivial
  | element tag attributes children =>
    obtain ⟨htag, hnames, hchildren⟩ := h
    rcases List.mem_cons.1 ht with rfl | ht
    · exact ⟨htag, hnames⟩
    · rcases List.mem_append.1 ht with ht | ht
      · exact PlainAll.tokens hchildren token ht
      · cases List.mem_singleton.1 ht
        exact htag

theorem PlainAll.tokens {docs : List Markup} (h : PlainAll docs) : ∀ token ∈ tokensAll docs,
    token.Plain := by
  intro token ht
  cases docs with
  | nil => cases ht
  | cons doc rest =>
    rcases List.mem_append.1 ht with ht | ht
    · exact Markup.Plain.tokens h.1 token ht
    · exact PlainAll.tokens h.2 token ht

end

/-- Where characters are content: between tags, or in the value of an attribute. -/
inductive Spot where
  | text
  | value (tag : String) (attributes : List (String × String)) (name : String) (sofar : List Char)

inductive Scan where
  | content (spot : Spot)
  | entity (spot : Spot) (name : List Char)
  | opening (name : List Char)
  | closing (name : List Char)
  | naming (tag : String) (attributes : List (String × String)) (name : List Char)
  | equals (tag : String) (attributes : List (String × String)) (name : String)
  | valued (tag : String) (attributes : List (String × String))

namespace Spot

def delimiter : Spot → Char
  | text => '<'
  | value _ _ _ _ => '"'

def leave : Spot → Scan
  | text => .opening []
  | value tag attributes name sofar => .valued tag (attributes ++ [(name, .ofList sofar)])

/-- The scan after one character of content, and the tokens that are complete by it. -/
def take (c : Char) : Spot → Scan × List Token
  | text => (.content text, [.char c])
  | value tag attributes name sofar => (.content (value tag attributes name (sofar ++ [c])), [])

end Spot

def entity? : List Char → Option Char
  | ['a', 'm', 'p'] => some '&'
  | ['l', 't'] => some '<'
  | ['g', 't'] => some '>'
  | ['q', 'u', 'o', 't'] => some '"'
  | _ => none

namespace Scan

def inside (tag : String) (attributes : List (String × String)) (c : Char) :
    Option (Scan × List Token) :=
  if c = ' ' then some (.naming tag attributes [], [])
  else if c = '>' then some (.content .text, [.start tag attributes])
  else none

def step (c : Char) : Scan → Option (Scan × List Token)
  | content spot =>
    if c = '&' then some (.entity spot [], [])
    else if c = spot.delimiter then some (spot.leave, [])
    else some (spot.take c)
  | entity spot name =>
    if c = ';' then (entity? name).map (spot.take ·) else some (.entity spot (name ++ [c]), [])
  | opening name =>
    if c = '/' then (if name = [] then some (.closing [], []) else none)
    else if c = ' ' ∨ c = '>' then inside (.ofList name) [] c
    else some (.opening (name ++ [c]), [])
  | closing name =>
    if c = '>' then some (.content .text, [.stop (.ofList name)]) else some (.closing (name ++ [c]),
      [])
  | naming tag attributes name =>
    if c = '=' then some (.equals tag attributes (.ofList name), [])
    else some (.naming tag attributes (name ++ [c]), [])
  | equals tag attributes name =>
    if c = '"' then some (.content (.value tag attributes name []), []) else none
  | valued tag attributes => inside tag attributes c

def run : List Char → Scan → Option (List Token)
  | [], content .text => some []
  | [], _ => none
  | c :: rest, s => match s.step c with
    | none => none
    | some (next, out) => (next.run rest).map (out ++ ·)

theorem run_cons {c : Char} {s : Scan} {taken : Scan × List Token} (h : s.step c = some taken)
    (rest : List Char) : s.run (c :: rest) = (taken.1.run rest).map (taken.2 ++ ·) := by
  simp only [run, h]

theorem run_cons_silent {c : Char} {s next : Scan} (h : s.step c = some (next, []))
    (rest : List Char) : s.run (c :: rest) = next.run rest := by
  simp [run_cons h]

theorem run_gather {f : List Char → Scan} {p : Char → Prop}
    (hf : ∀ name c, p c → (f name).step c = some (f (name ++ [c]), [])) {cs : List Char}
    (hcs : ∀ c ∈ cs, p c)
    (name rest : List Char) : (f name).run (cs ++ rest) = (f (name ++ cs)).run rest := by
  induction cs generalizing name with
  | nil => simp
  | cons c cs ih =>
    rw [List.cons_append, run_cons_silent (hf name c (hcs c (by simp))),
      ih fun d hd => hcs d (by simp [hd])]
    simp

theorem run_entity (spot : Spot) (name : List Char) {c : Char} (hname : entity? name = some c)
    (hend : ';' ∉ name) (rest : List Char) :
    (content spot).run ('&' :: (name ++ ';' :: rest)) =
      ((spot.take c).1.run rest).map ((spot.take c).2 ++ ·) := by
  have hstart : (content spot).step '&' = some (.entity spot [], []) := rfl
  have hstop : (entity spot name).step ';' = some (spot.take c) := by simp [step, hname]
  have hgather : (entity spot []).run (name ++ ';' :: rest) =
      (entity spot name).run (';' :: rest) :=
    run_gather (f := entity spot) (p := (· ≠ ';')) (fun name c hc => by simp [step, hc])
      (fun c hc h => hend (h ▸ hc)) [] _
  rw [run_cons_silent hstart, hgather, run_cons hstop]

/-- An escaped character is content wherever it stands, if its plain form does not end the
content. -/
theorem run_escapeTextChar (spot : Spot) {c : Char} (hend : c ≠ '<' → c ≠ spot.delimiter)
    (rest : List Char) : (content spot).run (Text.escapeTextChar c ++ rest) =
      ((spot.take c).1.run rest).map ((spot.take c).2 ++ ·) := by
  unfold Text.escapeTextChar
  split
  · exact run_entity spot ['a', 'm', 'p'] rfl (by decide) rest
  · exact run_entity spot ['l', 't'] rfl (by decide) rest
  · exact run_entity spot ['g', 't'] rfl (by decide) rest
  · rename_i hamp hlt _
    refine run_cons ?_ rest
    rw [step, if_neg hamp, if_neg (hend hlt)]

theorem run_value (tag : String) (attributes : List (String × String)) (name : String)
    (value rest sofar : List Char) :
    (content (.value tag attributes name sofar)).run (Text.escapeAttribute value ++ rest) =
      (content (.value tag attributes name (sofar ++ value))).run rest := by
  induction value generalizing sofar with
  | nil => simp [Text.escapeAttribute, Text.escapeText]
  | cons c value ih =>
    have hone : (content (.value tag attributes name sofar)).run
        (Text.escapeAttributeChar c ++ (Text.escapeAttribute value ++ rest)) =
          ((content (.value tag attributes name (sofar ++ [c]))).run
            (Text.escapeAttribute value ++ rest)).map ([] ++ ·) := by
      unfold Text.escapeAttributeChar
      split
      · rename_i hc
        subst hc
        exact run_entity _ ['q', 'u', 'o', 't'] rfl (by decide) _
      · rename_i hc
        exact run_escapeTextChar _ (fun _ => hc) _
    rw [Text.escapeAttribute_cons, List.append_assoc, hone, ih, List.append_assoc]
    simp

theorem run_attribute (tag : String) (before : List (String × String)) {a : String × String}
    (ha : PlainName a.1) (rest : List Char) :
    (valued tag before).run (Tree.attributeMarkup a ++ rest) =
      (valued tag (before ++ [a])).run rest := by
  have hlayout : Tree.attributeMarkup a ++ rest =
      ' ' :: (a.1.toList ++ '=' :: '"' :: (Text.escapeAttribute a.2.toList ++ '"' :: rest)) := by
    simp [Tree.attributeMarkup]
  have hname : ∀ rest, (naming tag before []).run (a.1.toList ++ rest) =
      (naming tag before a.1.toList).run rest :=
    run_gather (f := naming tag before) (p := (· ≠ '=')) (fun name c hc => by simp [step, hc])
      (ha.ne (by decide)) []
  have hspace : (valued tag before).step ' ' = some (.naming tag before [], []) := rfl
  have hequals : (naming tag before a.1.toList).step '=' = some (.equals tag before a.1, []) := by
    simp [step]
  have hvalue : (equals tag before a.1).step '"' = some (.content (.value tag before a.1 []), []) :=
    rfl
  have hquote : (content (.value tag before a.1 a.2.toList)).step '"' =
      some (.valued tag (before ++ [a]), []) := by
    simp [step, Spot.delimiter, Spot.leave]
  rw [hlayout, run_cons_silent hspace, hname, run_cons_silent hequals, run_cons_silent hvalue,
    run_value, List.nil_append, run_cons_silent hquote]

theorem run_attributes (tag : String) {attributes : List (String × String)}
    (h : ∀ a ∈ attributes, PlainName a.1) (before : List (String × String)) (rest : List Char) :
    (valued tag before).run (attributes.flatMap Tree.attributeMarkup ++ rest) =
      (valued tag (before ++ attributes)).run rest := by
  induction attributes generalizing before with
  | nil => simp
  | cons a attributes ih =>
    rw [List.flatMap_cons, List.append_assoc, run_attribute tag before (h a (by simp)),
      ih fun b hb => h b (by simp [hb]), List.append_assoc]
    rfl

theorem run_opening (tag : String) (attributes : List (String × String)) (rest : List Char) :
    (opening tag.toList).run (attributes.flatMap Tree.attributeMarkup ++ '>' :: rest) =
      (valued tag []).run (attributes.flatMap Tree.attributeMarkup ++ '>' :: rest) := by
  have hstep : ∀ c, c = ' ' ∨ c = '>' → (opening tag.toList).step c = (valued tag []).step c := by
    rintro c (rfl | rfl) <;> simp [step]
  have hrun : ∀ c rest, c = ' ' ∨ c = '>' →
      (opening tag.toList).run (c :: rest) = (valued tag []).run (c :: rest) :=
    fun c rest hc => by simp only [run, hstep c hc]
  cases attributes with
  | nil => exact hrun '>' rest (.inr rfl)
  | cons a attributes => exact hrun ' ' _ (.inl rfl)

theorem run_write {token : Token} (h : token.Plain) (rest : List Char) :
    (content .text).run (token.write ++ rest) = ((content .text).run rest).map (token :: ·) := by
  cases token with
  | char c => exact run_escapeTextChar .text id rest
  | start tag attributes =>
    have hlayout : (Token.start tag attributes).write ++ rest =
        '<' :: (tag.toList ++ (attributes.flatMap Tree.attributeMarkup ++ '>' :: rest)) := by
        simp [Token.write]
    have hopen : (content .text).step '<' = some (.opening [], []) := rfl
    have hname : ∀ rest, (opening []).run (tag.toList ++ rest) = (opening tag.toList).run rest :=
      run_gather (f := opening) (p := (· ∉ reserved))
        (fun name c hc => by simp_all [step, reserved]) h.1 []
    have hend : (valued tag attributes).step '>' = some (.content .text, [.start tag attributes]) :=
      rfl
    rw [hlayout, run_cons_silent hopen, hname, run_opening, run_attributes tag h.2, List.nil_append,
      run_cons hend]
    rfl
  | stop tag =>
    have hlayout : (Token.stop tag).write ++ rest = '<' :: '/' :: (tag.toList ++ '>' :: rest) := by
      simp [Token.write]
    have hopen : (content .text).step '<' = some (.opening [], []) := rfl
    have hslash : (opening []).step '/' = some (.closing [], []) := rfl
    have hname : ∀ rest, (closing []).run (tag.toList ++ rest) = (closing tag.toList).run rest :=
      run_gather (f := closing) (p := (· ≠ '>')) (fun name c hc => by simp [step, hc])
        (PlainName.ne h (by decide)) []
    have hend : (closing tag.toList).step '>' = some (.content .text, [.stop tag]) := by simp [step]
    rw [hlayout, run_cons_silent hopen, run_cons_silent hslash, hname, run_cons hend]
    rfl

theorem run_tokens {tokens : List Token} (h : ∀ token ∈ tokens, token.Plain) :
    (content .text).run (tokens.flatMap Token.write) = some tokens := by
  induction tokens with
  | nil => rfl
  | cons token rest ih =>
    rw [List.flatMap_cons, run_write (h token (by simp)), ih fun t ht => h t (by simp [ht])]
    rfl

end Scan

/-- Documents that are being put together from the end. The text and the documents are those of the
level that is read; further out, closing tags wait for their opening tags, each with what stands
after it. -/
structure Assembly where
  text : List Char
  docs : List Markup
  outer : List (String × List Markup)

namespace Assembly

def level (p : Assembly) : List Markup :=
  if p.text = [] then p.docs else .text (.ofList p.text) :: p.docs

def put : Token → Assembly → Option Assembly
  | .char c, p => some { p with text := c :: p.text }
  | .stop tag, p => some ⟨[], [], (tag, p.level) :: p.outer⟩
  | .start tag attributes, p => match p.outer with
    | [] => none
    | (closed, after) :: outer =>
      if tag = closed then some ⟨[], .element tag attributes p.level :: after, outer⟩ else none

def finish (p : Assembly) : Option (List Markup) := if p.outer.isEmpty then some p.level else none

/-- The text that is read ends before no other text. -/
def Settled (p : Assembly) : Prop := ∀ content rest, p.docs ≠ .text content :: rest

theorem put_chars (content : List Char) (p : Assembly) :
    (content.map Token.char).foldrM put p = some { p with text := content ++ p.text } := by
  induction content with
  | nil => rfl
  | cons c content ih =>
    rw [List.map_cons, List.foldrM_cons, ih]
    rfl

theorem Settled.consText_docs {p : Assembly} (h : p.Settled) (content : String) :
    consText content p.docs = .text content :: p.docs := by
  unfold consText
  split
  · rename_i next rest hdocs
    exact absurd hdocs (h next rest)
  · rfl

theorem Settled.level_chars {p : Assembly} (h : p.Settled) (content : List Char) :
    level { p with text := content ++ p.text } =
      (Markup.text (.ofList content)).normalBefore p.level := by
  cases content with
  | nil => rfl
  | cons c content =>
    have hne : String.ofList (c :: content) ≠ "" :=
      fun heq => by simpa using congrArg String.toList heq
    have hlevel : level { p with text := c :: content ++ p.text } =
        .text (.ofList (c :: content ++ p.text)) :: p.docs := if_neg (by simp)
    rw [hlevel, Markup.normalBefore, if_neg hne]
    by_cases htext : p.text = []
    · have hdocs : p.level = p.docs := if_pos htext
      rw [hdocs, h.consText_docs, htext, List.append_nil]
    · have hfirst : p.level = .text (.ofList p.text) :: p.docs := if_neg htext
      rw [hfirst, consText, String.ofList_append]

mutual

/-- Reading a document puts it, in normal form, before what has been read. -/
theorem put_tokens (doc : Markup) {p : Assembly} (h : p.Settled) :
    ∃ p', doc.tokens.foldrM put p = some p' ∧ p'.Settled ∧ p'.outer = p.outer ∧
      p'.level = doc.normalBefore p.level := by
  cases doc with
  | text content =>
    refine ⟨_, put_chars content.toList p, h, rfl, ?_⟩
    rw [h.level_chars, String.ofList_toList]
  | element tag attributes children =>
    -- from the end: the closing tag, the children on a level of their own, the opening tag
    let inner : Assembly := ⟨[], [], (tag, p.level) :: p.outer⟩
    obtain ⟨p', hput, -, houter, hlevel⟩ :=
      put_tokensAll children (p := inner) (fun _ _ => nofun) rfl
    have hstart :
        put (.start tag attributes) p' = some ⟨[], .element tag attributes p'.level :: p.level,
        p.outer⟩ := by
      simp [put, houter, inner]
    have hstop : [Token.stop tag].foldrM put p = some inner := rfl
    refine ⟨⟨[], .element tag attributes p'.level :: p.level, p.outer⟩, ?_,
      fun _ _ => nofun, rfl, ?_⟩
    · rw [Markup.tokens, List.foldrM_cons, List.foldrM_append, hstop, Option.bind_eq_bind,
        Option.bind_some, hput]
      exact hstart
    · rw [Markup.normalBefore, ← hlevel]
      rfl

theorem put_tokensAll (docs : List Markup) {p : Assembly} (h : p.Settled) (hp : p.level = []) :
    ∃ p', (tokensAll docs).foldrM put p = some p' ∧ p'.Settled ∧ p'.outer = p.outer ∧
      p'.level = normalAll docs := by
  cases docs with
  | nil => exact ⟨p, rfl, h, rfl, hp⟩
  | cons doc rest =>
    obtain ⟨p₁, hrest, h₁, houter₁, hlevel₁⟩ := put_tokensAll rest h hp
    obtain ⟨p₂, hdoc, h₂, houter₂, hlevel₂⟩ := put_tokens doc h₁
    refine ⟨p₂, ?_, h₂, houter₂.trans houter₁, ?_⟩
    · rw [tokensAll, List.foldrM_append, hrest]
      exact hdoc
    · rw [hlevel₂, hlevel₁, normalAll]

end

end Assembly

def decode (markup : String) : Option (List Markup) := do
  let tokens ← (Scan.content .text).run markup.toList
  let assembly ← tokens.foldrM Assembly.put ⟨[], [], []⟩
  assembly.finish

theorem decode_write {markup : String} {doc : Markup} (h : doc.Plain)
    (hwrite : markup.toList = doc.tokens.flatMap Token.write) :
    decode markup = some (normalAll [doc]) := by
  have hrun := Scan.run_tokens h.tokens
  obtain ⟨p, hput, -, houter, hlevel⟩ :=
    Assembly.put_tokens doc (p := ⟨[], [], []⟩) fun _ _ => nofun
  simp only [decode, hwrite, hrun, Option.bind_eq_bind, Option.bind_some, hput, Assembly.finish,
    houter, hlevel]
  rfl

theorem Tree.Shows.decode_markup {t : Tree} (h : t.WellFormed) {n : NodeId} {doc : Markup}
    (hdoc : t.Shows n doc) (hplain : doc.Plain) : decode (t.markup n) = some (normalAll [doc]) := by
  obtain ⟨doc', hdoc', hwrite⟩ := Tree.exists_shows_markup h n
  obtain rfl := hdoc.unique hdoc'
  exact decode_write hplain hwrite

/-- Of every node in every reachable scene: it shows a document, and if the names in it are plain,
then its markup reads back as the normal form of that document. So no document with plain names and
another normal form has the same markup, in whatever reachable scene it stands. -/
theorem Course.Reachable.decode_markup_eq {m : Moment} (h : Reachable m) (n : NodeId) :
    (∃ doc, m.scene.tree.Shows n doc) ∧ ∀ doc, m.scene.tree.Shows n doc → doc.Plain →
      decode (m.scene.tree.markup n) = some (normalAll [doc]) ∧
      ∀ m' n' doc', Reachable m' → m'.scene.tree.Shows n' doc' → doc'.Plain →
        m'.scene.tree.markup n' = m.scene.tree.markup n → normalAll [doc'] = normalAll [doc] := by
  obtain ⟨doc, hdoc, -⟩ := Tree.exists_shows_markup h.wellFormed n
  refine ⟨⟨doc, hdoc⟩, fun doc hdoc hplain => ?_⟩
  have hdecode := hdoc.decode_markup h.wellFormed hplain
  refine ⟨hdecode, fun m' n' doc' h' hdoc' hplain' hsame => ?_⟩
  have hdecode' := hdoc'.decode_markup h'.wellFormed hplain'
  rw [hsame, hdecode] at hdecode'
  exact (Option.some.inj hdecode').symm

def Course.titledParagraph : Moment :=
  let empty := ((Scene.empty .off).addNode (.element "p")).2
  let titled := empty.modifyNode 0 (.setAttribute "title" "\"<b>")
  let texts := (((titled.addNode (.text "x</p>")).2.addNode (.text "")).2.addNode (.text "&lt;")).2
  ⟨(((texts.append 0 1).2.append 0 2).2.append 0 3).2, [.code], ⟨[], []⟩⟩

theorem Course.reachable_titledParagraph : Reachable titledParagraph :=
  ⟨.off, .tail (.tail (.tail (.tail (.tail (.tail (.tail (.single (.act (.makeNode _ _)))
    (.act (.setAttribute _ 0 _ _))) (.act (.makeNode _ _))) (.act (.makeNode _ _)))
    (.act (.makeNode _ _))) (.act (.append _ 0 (by decide)))) (.act (.append _ 0 (by decide))))
    (.act (.append _ 0 (by decide)))⟩

theorem Course.Reachable.decode_markup_eq_of_paragraph : ∃ (m : Moment) (doc : Markup),
    Reachable m ∧ m.scene.tree.Shows 0 doc ∧ doc.Plain ∧
    decode (m.scene.tree.markup 0) = some (normalAll [doc]) ∧
      normalAll [doc] = [.element "p" [("title", "\"<b>")] [.text "x</p>&lt;"]] := by
  have hkinds : (titledParagraph.scene.tree.get 0).kind = .element "p" ∧
    (titledParagraph.scene.tree.get 1).kind = .text "x</p>" ∧
      (titledParagraph.scene.tree.get 2).kind = .text "" ∧
      (titledParagraph.scene.tree.get 3).kind = .text "&lt;" := by decide
  have hchildren : titledParagraph.scene.tree.ShowAll (titledParagraph.scene.tree.children 0)
      [.text "x</p>", .text "", .text "&lt;"] := by
    have hthree : titledParagraph.scene.tree.children 0 = [1, 2, 3] := by decide
    rw [hthree]
    exact .cons (.text hkinds.2.1) (.cons (.text hkinds.2.2.1) (.cons (.text hkinds.2.2.2) .nil))
  have hshows := Tree.Shows.element hkinds.1 hchildren
  have hattributes : (titledParagraph.scene.tree.get 0).attributes.entries =
    [("title", "\"<b>")] := by decide
  rw [hattributes] at hshows
  have hplain :
      (Markup.element "p" [("title", "\"<b>")] [.text "x</p>", .text "", .text "&lt;"]).Plain := by
    simp [Markup.Plain, PlainAll, PlainName, reserved]
  have hdecode := (reachable_titledParagraph.decode_markup_eq 0).2 _ hshows hplain
  exact ⟨_, _, reachable_titledParagraph, hshows, hplain, hdecode.1, rfl⟩

end UiTree
