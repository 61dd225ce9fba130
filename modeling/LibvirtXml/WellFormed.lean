/-
# What the parser accepts

Every document the façade holds comes from a parse: `VMXML(hypervisor_type=t)` parses the
bare-bones text, and `vmxml['xml'] = virsh.dumpxml(name)` parses the tool's dump.  Whatever the
text, a parse that succeeds gives a WELL-FORMED document (`parse_wellFormed`): every tag and every
attribute name is an XML name, no element names an attribute twice, and every character of an
attribute value or a text is one XML allows.  The distinct attribute names are what make the
document's attributes a dictionary, so that `Element.set` and `Element.get` act on the one entry
of a key.

The proof follows the parser's own recursion: each token reader returns what it promises
(`isName_of_name`, `xmlChar_of_reference`, `attValue_xmlChars`, `cdata_xmlChars`), the attribute
loop keeps its list well formed (`attributes_wellFormed`), and one induction over the fuel of
`content`, with `elementWith` for each child, carries the element's text and children
(`content_wellFormed`).
-/
import LibvirtXml.Write

namespace LibvirtXml

namespace Markup

/-! ## 1. Well-formed documents -/

/-- Attributes with XML names, each named once, and values of XML characters. -/
def attribWellFormed (attrib : List (String × String)) : Bool :=
  decide (attrib.map Prod.fst).Nodup && attrib.all fun a => isName a.1 && a.2.toList.all isXmlChar

mutual
/-- **The documents a parse can give.** -/
def wellFormed : Element → Bool
  | ⟨tag, attrib, text, children⟩ =>
    isName tag && attribWellFormed attrib && (text.getD "").toList.all isXmlChar &&
      wellFormedList children
/-- Every element of a list of children is `wellFormed`. -/
def wellFormedList : List Element → Bool
  | [] => true
  | e :: es => wellFormed e && wellFormedList es
end

theorem wellFormedList_iff {cs : List Element} :
    wellFormedList cs = true ↔ ∀ c ∈ cs, wellFormed c = true := by
  induction cs with
  | nil => simp [wellFormedList]
  | cons c cs ih => simp [wellFormedList, ih]

theorem wellFormed_mk {tag : String} {attrib : List (String × String)} {text : Option String}
    {children : List Element} :
    wellFormed ⟨tag, attrib, text, children⟩ = true ↔ isName tag = true ∧
      attribWellFormed attrib = true ∧ (text.getD "").toList.all isXmlChar = true ∧
      ∀ c ∈ children, wellFormed c = true := by
  simp only [wellFormed, Bool.and_eq_true, wellFormedList_iff, and_assoc]

/-! ## 2. The tokens -/

theorem isName_of_name {cs rest : List Char} {n : String} (h : name cs = .ok (n, rest)) :
    isName n = true := by
  cases cs with
  | nil => cases h
  | cons c cs =>
    simp only [name] at h
    split at h
    · cases h
      simp [isName, *]
    · cases h

theorem xmlChar_of_charRef {base : Nat} {ds : List Char} {c : Char} (h : charRef base ds = some c) :
    isXmlChar c = true := by
  unfold charRef at h
  split at h
  · cases h
  · obtain ⟨n, -, hn⟩ := Option.bind_eq_some.mp h
    split at hn
    · cases hn; exact ‹_ ∧ _›.2
    · cases hn

theorem xmlChar_of_decodeRef {r : List Char} {c : Char} (h : decodeRef r = some c) :
    isXmlChar c = true := by
  unfold decodeRef at h
  split at h <;> first | (cases h; decide) | exact xmlChar_of_charRef h | cases h

theorem xmlChar_of_reference {cs rest : List Char} {c : Char} (h : reference cs = .ok (c, rest)) :
    isXmlChar c = true := by
  unfold reference at h
  split at h
  · split at h
    · cases h; exact xmlChar_of_decodeRef ‹_›
    · cases h
  · cases h

/-- An attribute value is read as XML characters: a tab or a newline becomes a space, and a
reference stands for a character XML allows. -/
theorem attValue_xmlChars (q : Char) : ∀ (cs : List Char) (ref : Option (List Char))
    {v rest : List Char}, attValue q cs ref = .ok (v, rest) → v.all isXmlChar = true
  | [], _, _, _, h => by cases h
  | c :: cs, none, v, rest, h => by
    unfold attValue at h
    split_ifs at h with h₁ h₂ h₃ h₄ hs
    · cases h; rfl
    · exact attValue_xmlChars q cs (some []) h
    all_goals
      obtain ⟨⟨v', rest'⟩, hv, he⟩ := map_eq_ok h
      cases he
      simp only [List.all_cons, attValue_xmlChars q cs none hv, Bool.and_true]
    · -- white space is read as a space
      decide
    · simpa using h₄
  | c :: cs, some r, v, rest, h => by
    unfold attValue at h
    split_ifs at h with h₁ h₂
    · split at h
      · obtain ⟨⟨v', rest'⟩, hv, he⟩ := map_eq_ok h
        cases he
        simp only [List.all_cons, attValue_xmlChars q cs none hv, Bool.and_true]
        exact xmlChar_of_decodeRef ‹_›
      · cases h
    · exact attValue_xmlChars q cs _ h

/-- A CDATA section is XML characters. -/
theorem cdata_xmlChars : ∀ {cs t rest : List Char}, cdata cs = .ok (t, rest) →
    t.all isXmlChar = true
  | [], _, _, h => by cases h
  | c :: cs, t, rest, h => by
    by_cases hend : ∃ r, c = ']' ∧ cs = ']' :: '>' :: r
    · obtain ⟨r, rfl, rfl⟩ := hend
      simp only [cdata, Except.ok.injEq, Prod.mk.injEq] at h
      rw [← h.1]; rfl
    · rw [cdata.eq_2 _ _ fun r hc hr => hend ⟨r, hc, hr⟩] at h
      split_ifs at h with hc
      obtain ⟨⟨t', rest'⟩, ht, he⟩ := map_eq_ok h
      cases he
      simp [hc, cdata_xmlChars ht]

/-! ## 3. Start tags -/

theorem attribWellFormed_append {attrs : List (String × String)} {n : String} {v : List Char}
    (ha : attribWellFormed attrs = true) (hn : isName n = true) (hv : v.all isXmlChar = true)
    (hnew : attrs.any (·.1 == n) = false) : attribWellFormed (attrs ++ [(n, ⟨v⟩)]) = true := by
  simp only [attribWellFormed, Bool.and_eq_true, decide_eq_true_eq] at ha ⊢
  refine ⟨?_, ?_⟩
  · rw [List.map_append, List.nodup_append]
    refine ⟨ha.1, List.nodup_singleton _, ?_⟩
    simp only [List.map_cons, List.map_nil, List.disjoint_singleton, List.mem_map, not_exists,
      not_and]
    simpa [List.any_eq_false] using hnew
  · simp only [List.all_append, ha.2, List.all_cons, List.all_nil, hn, Bool.true_and,
      Bool.and_true]
    exact hv

/-- **The attribute loop keeps its list well formed**: a repeated name is refused. -/
theorem attributes_wellFormed : ∀ (fuel : Nat) (attrs : List (String × String))
    {cs : List Char} {r : (List (String × String) × Bool) × List Char},
    attributes fuel attrs cs = .ok r → attribWellFormed attrs = true →
      attribWellFormed r.1.1 = true
  | 0, _, _, _, h, _ => by cases h
  | fuel + 1, attrs, cs, r, h, ha => by
    unfold attributes at h
    split at h
    · cases h; exact ha
    · cases h; exact ha
    · cases h
    · split_ifs at h
      split at h
      · cases h
      · rename_i n rest hname
        split at h
        · split at h
          · split_ifs at h with hq hdup
              <;> split at h
            iterate 3 cases h
            exact attributes_wellFormed fuel _ h (attribWellFormed_append ha
              (isName_of_name hname) (attValue_xmlChars _ _ _ ‹_›) (Bool.eq_false_iff.mpr hdup))
          · cases h
        · cases h

/-! ## 4. Elements -/

/-- What `content` keeps: the text read so far is of XML characters, and the children read so
far are well formed. -/
def ContentOk (text : Option (List Char)) (children : List Element) : Prop :=
  (text.getD []).all isXmlChar = true ∧ ∀ c ∈ children, wellFormed c = true

theorem contentOk_start : ContentOk none [] := ⟨rfl, by simp⟩

theorem contentOk_addText {text : Option (List Char)} {children : List Element}
    (h : ContentOk text children) {t : List Char} (ht : t.all isXmlChar = true) :
    ContentOk (addText text children t) children := by
  unfold addText
  split
  · exact ⟨by simp [List.all_append, h.1, ht], h.2⟩
  · exact h

/-- **An element is well formed** when its content reader keeps `ContentOk` from the start. -/
theorem elementWith_wellFormed {content : String → Option (List Char) → List Element →
      List Char → Step (Option (List Char) × List Element)}
    (hc : ∀ tag cs r, content tag none [] cs = .ok r → ContentOk r.1.1 r.1.2)
    {cs rest : List Char} {e : Element} (h : elementWith content cs = .ok (e, rest)) :
    wellFormed e = true := by
  unfold elementWith at h
  split at h
  · cases h
  · rename_i tag rest₁ hname
    split at h
    · cases h
    · rename_i attrs rest₂ hattr
      cases h
      exact wellFormed_mk.mpr ⟨isName_of_name hname,
        attributes_wellFormed _ [] hattr rfl, rfl, by simp⟩
    · rename_i attrs rest₂ hattr
      split at h
      · cases h
      · rename_i text children rest₃ hcontent
        cases h
        obtain ⟨ht, hch⟩ := hc _ _ _ hcontent
        exact wellFormed_mk.mpr ⟨isName_of_name hname, attributes_wellFormed _ [] hattr rfl,
          by cases text with | none => rfl | some t => simpa using ht, hch⟩

/-- **The content reader keeps its text and children well formed**, by induction on its fuel:
character data and references add XML characters, and each child is read by `elementWith`. -/
theorem content_wellFormed : ∀ (fuel : Nat) (tag : String) (text : Option (List Char))
    (children : List Element) {cs : List Char}
    {r : (Option (List Char) × List Element) × List Char},
    content fuel tag text children cs = .ok r → ContentOk text children → ContentOk r.1.1 r.1.2
  | 0, _, _, _, _, _, h, _ => by cases h
  | _ + 1, _, _, _, [], _, h, _ => by cases h
  | fuel + 1, tag, text, children, c :: rest, r, h, hok => by
    have ih := content_wellFormed fuel tag
    unfold content at h
    split_ifs at h with hlt hamp hcd hx
    · split at h
      · -- the end tag
        split at h
        · cases h
        · split at h
          · split_ifs at h
            cases h
            exact hok
          · cases h
      · split at h
        · cases h
        · exact ih _ _ h hok
      · split at h
        · cases h
        · exact ih _ _ h (contentOk_addText hok (cdata_xmlChars ‹_›))
      · split at h
        · cases h
        · split at h
          · cases h
          · exact ih _ _ h hok
      · -- a child element
        split at h
        · cases h
        · rename_i child rest' hchild
          have hw := elementWith_wellFormed (fun _ _ _ hr => content_wellFormed fuel _ none [] hr
            contentOk_start) hchild
          exact ih _ _ h ⟨hok.1, by simpa [or_imp, forall_and] using ⟨hok.2, hw⟩⟩
    · split at h
      · cases h
      · rename_i c' rest' hc'
        exact ih _ _ h (contentOk_addText hok (by simpa using xmlChar_of_reference hc'))
    · exact ih _ _ h (contentOk_addText hok (by simpa using hx))

/-- An element read within any fuel is well formed. -/
theorem element_wellFormed : ∀ {fuel : Nat} {cs rest : List Char} {e : Element},
    element fuel cs = .ok (e, rest) → wellFormed e = true
  | 0, _, _, _, h => by cases h
  | fuel + 1, _, _, _, h => elementWith_wellFormed
      (fun _ _ _ hr => content_wellFormed fuel _ none [] hr contentOk_start) h

end Markup

end LibvirtXml
