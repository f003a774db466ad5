import Mathlib.Logic.Function.Basic
import UiTree.Text
set_option autoImplicit false

/-!
Escapes are safe and can be undone. Both escapes write each character by itself, as an entity or as
it is; for attribute values this has to be shown, since there the quotes are replaced in a second
pass over what the first has written. An entity has an ampersand only in front, so a reader that
meets one knows where it is, even if the text that was escaped looked like an entity before.
-/

namespace UiTree.Text

def escapeAttributeChar (c : Char) : List Char :=
  if c = '"' then "&quot;".toList else escapeTextChar c

/-- The first pass writes no quote that was not there, and the second replaces nothing else. -/
theorem escapeQuote_escapeTextChar (c : Char) :
    (escapeTextChar c).flatMap escapeQuote = escapeAttributeChar c := by
  unfold escapeAttributeChar escapeTextChar
  split
  · rfl
  · rfl
  · rfl
  · rw [List.flatMap_singleton]
    unfold escapeQuote
    split
    · rfl
    · rename_i hquote
      rw [if_neg hquote]

theorem escapeAttribute_eq_flatMap (s : List Char) :
    escapeAttribute s = s.flatMap escapeAttributeChar := by
  rw [escapeAttribute, escapeText, List.flatMap_assoc]
  simp only [escapeQuote_escapeTextChar]

theorem escapeAttribute_cons (c : Char) (s : List Char) :
    escapeAttribute (c :: s) = escapeAttributeChar c ++ escapeAttribute s := by
  rw [escapeAttribute_eq_flatMap, escapeAttribute_eq_flatMap, List.flatMap_cons]

/-- Every character is written as one of the entities or, if it is not special, as it is. -/
def EscapesBy (f : Char → List Char) (special : List Char) (entities : List String) : Prop :=
  ∀ c, (∃ entity ∈ entities, f c = entity.toList) ∨ c ∉ special ∧ f c = [c]

def AmpersandsBegin (entities : List String) (text : List Char) : Prop :=
  ∀ rest, '&' :: rest <:+ text → ∃ entity ∈ entities, entity.toList <+: '&' :: rest

theorem escapesBy_text : EscapesBy escapeTextChar ['&', '<', '>'] ["&amp;", "&lt;", "&gt;"] := by
  intro c
  unfold escapeTextChar
  split
  · exact .inl ⟨"&amp;", by simp, rfl⟩
  · exact .inl ⟨"&lt;", by simp, rfl⟩
  · exact .inl ⟨"&gt;", by simp, rfl⟩
  · rename_i hamp hlt hgt
    exact .inr ⟨by simp_all, rfl⟩

theorem escapesBy_attribute :
    EscapesBy escapeAttributeChar ['&', '<', '>', '"'] ["&amp;", "&lt;", "&gt;", "&quot;"] := by
  intro c
  unfold escapeAttributeChar
  split
  · exact .inl ⟨"&quot;", by simp, rfl⟩
  · rename_i hquote
    rcases escapesBy_text c with ⟨entity, hentity, hc⟩ | ⟨hplain, hc⟩
    · exact .inl ⟨entity, List.mem_append_left ["&quot;"] hentity, hc⟩
    · exact .inr ⟨by simp_all, hc⟩

namespace EscapesBy

variable {f : Char → List Char} {special : List Char} {entities : List String}

theorem notMem_flatMap (h : EscapesBy f special entities) {d : Char} (hd : d ∈ special)
    (hentities : ∀ entity ∈ entities, d ∉ entity.toList) (s : List Char) : d ∉ s.flatMap f := by
  intro hmem
  obtain ⟨c, -, hc⟩ := List.mem_flatMap.1 hmem
  rcases h c with ⟨entity, hentity, heq⟩ | ⟨hplain, heq⟩
  · exact hentities entity hentity (heq ▸ hc)
  · rw [heq, List.mem_singleton] at hc
    exact hplain (hc ▸ hd)

theorem exists_entity_of_split (h : EscapesBy f special entities) (hamp : '&' ∈ special)
    (hentities : ∀ entity ∈ entities, '&' ∉ entity.toList.tail) {c : Char}
    {before after : List Char}
    (hc : f c = before ++ '&' :: after) : ∃ entity ∈ entities, entity.toList = '&' :: after := by
  rcases h c with ⟨entity, hentity, heq⟩ | ⟨hplain, heq⟩
  · have hsplit : entity.toList = before ++ '&' :: after := heq.symm.trans hc
    cases before with
    | nil => exact ⟨entity, hentity, hsplit⟩
    | cons b before =>
      refine absurd ?_ (hentities entity hentity)
      rw [hsplit]
      simp
  · -- a character that is written as it is would be the ampersand itself
    have hone : '&' ∈ [c] := by
      rw [← heq, hc]
      simp
    obtain rfl := List.mem_singleton.1 hone
    exact absurd hamp hplain

theorem ampersandsBegin (h : EscapesBy f special entities) (hamp : '&' ∈ special)
    (hentities : ∀ entity ∈ entities, '&' ∉ entity.toList.tail) (s : List Char) :
    AmpersandsBegin entities (s.flatMap f) := by
  rintro rest ⟨before, hsplit⟩
  induction s generalizing before with
  | nil => simp at hsplit
  | cons c s ih =>
    -- the ampersand stands in what is written for `c`, or later
    rw [List.flatMap_cons, List.append_eq_append_iff] at hsplit
    rcases hsplit with ⟨inner, hc, hrest⟩ | ⟨skipped, -, hlater⟩
    · cases inner with
      | nil => exact ih [] hrest
      | cons d inner =>
        obtain ⟨rfl, rfl⟩ := List.cons.inj hrest
        obtain ⟨entity, hentity, heq⟩ := h.exists_entity_of_split hamp hentities hc
        exact ⟨entity, hentity, heq ▸ ⟨_, rfl⟩⟩
    · exact ih skipped hlater.symm

end EscapesBy

/-- Reads from left to right. What is no entity is read as it stands. -/
def unescape : List Char → List Char
  | '&' :: 'a' :: 'm' :: 'p' :: ';' :: rest => '&' :: unescape rest
  | '&' :: 'l' :: 't' :: ';' :: rest => '<' :: unescape rest
  | '&' :: 'g' :: 't' :: ';' :: rest => '>' :: unescape rest
  | '&' :: 'q' :: 'u' :: 'o' :: 't' :: ';' :: rest => '"' :: unescape rest
  | c :: rest => c :: unescape rest
  | [] => []

theorem unescape_cons {c : Char} (h : c ≠ '&') (rest : List Char) :
    unescape (c :: rest) = c :: unescape rest := by
  rw [unescape]
  all_goals
    intros
    contradiction

theorem unescape_escapeTextChar (c : Char) (rest : List Char) :
    unescape (escapeTextChar c ++ rest) = c :: unescape rest := by
  unfold escapeTextChar
  split
  · rfl
  · rfl
  · rfl
  · rename_i hamp _ _
    exact unescape_cons hamp rest

theorem unescape_escapeAttributeChar (c : Char) (rest : List Char) :
    unescape (escapeAttributeChar c ++ rest) = c :: unescape rest := by
  unfold escapeAttributeChar
  split
  · rename_i hquote
    subst hquote
    rfl
  · exact unescape_escapeTextChar c rest

/-- Where what is written for a character reads back as that character whatever comes after it, a
whole text reads back, too. -/
theorem unescape_flatMap {f : Char → List Char}
    (hf : ∀ c rest, unescape (f c ++ rest) = c :: unescape rest) (s : List Char) :
    unescape (s.flatMap f) = s := by
  induction s with
  | nil => rfl
  | cons c s ih => rw [List.flatMap_cons, hf, ih]

theorem unescape_escapeText (s : List Char) : unescape (escapeText s) = s :=
  unescape_flatMap unescape_escapeTextChar s

theorem unescape_escapeAttribute (s : List Char) : unescape (escapeAttribute s) = s := by
  rw [escapeAttribute_eq_flatMap]
  exact unescape_flatMap unescape_escapeAttributeChar s

/-- Escaped text has no angle brackets, and its ampersands begin entities. The two passes for
attribute values come to one, and what they write has no quote besides. The same reader gives back
what was escaped, so no two texts are escaped alike. -/
theorem escapes_safe_and_undone :
    (∀ s, '<' ∉ escapeText s ∧ '>' ∉ escapeText s ∧ AmpersandsBegin ["&amp;", "&lt;", "&gt;"]
      (escapeText s)) ∧
    (∀ s, escapeAttribute s = s.flatMap escapeAttributeChar ∧ '"' ∉ escapeAttribute s ∧
      '<' ∉ escapeAttribute s ∧ '>' ∉ escapeAttribute s ∧
      AmpersandsBegin ["&amp;", "&lt;", "&gt;", "&quot;"] (escapeAttribute s)) ∧
    (∀ s, unescape (escapeText s) = s ∧ unescape (escapeAttribute s) = s) ∧
    Function.Injective escapeText ∧ Function.Injective escapeAttribute := by
  refine ⟨fun s => ⟨?_, ?_, ?_⟩, fun s => ?_,
    fun s => ⟨unescape_escapeText s, unescape_escapeAttribute s⟩,
    Function.LeftInverse.injective unescape_escapeText,
    Function.LeftInverse.injective unescape_escapeAttribute⟩
  · exact escapesBy_text.notMem_flatMap (by decide) (by decide) s
  · exact escapesBy_text.notMem_flatMap (by decide) (by decide) s
  · exact escapesBy_text.ampersandsBegin (by decide) (by decide) s
  · have hpass := escapeAttribute_eq_flatMap s
    refine ⟨hpass, ?_⟩
    rw [hpass]
    exact ⟨escapesBy_attribute.notMem_flatMap (by decide) (by decide) s,
      escapesBy_attribute.notMem_flatMap (by decide) (by decide) s,
      escapesBy_attribute.notMem_flatMap (by decide) (by decide) s,
      escapesBy_attribute.ampersandsBegin (by decide) (by decide) s⟩

theorem escapes_safe_and_undone_of_entity :
    let s := "&lt;\"".toList
    escapeText s = "&amp;lt;\"".toList ∧ escapeAttribute s = "&amp;lt;&quot;".toList ∧
      (∃ entity ∈ ["&amp;", "&lt;", "&gt;", "&quot;"], entity.toList <+: "&quot;".toList) ∧
      unescape (escapeText s) = s ∧ unescape (escapeAttribute s) = s := by
  intro s
  obtain ⟨-, hattribute, hundone, -⟩ := escapes_safe_and_undone
  have hsuffix : "&quot;".toList <:+ escapeAttribute s := ⟨"&amp;lt;".toList, rfl⟩
  exact ⟨rfl, rfl, (hattribute s).2.2.2.2 "quot;".toList hsuffix, hundone s⟩

end UiTree.Text
