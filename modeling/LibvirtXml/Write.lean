/-
# Writing a document back, and reading it again

`set_cpu_mode` and `set_primary_serial` end their edits with

    xmltreefile.write()
    vmxml.set_xml(xmltreefile.name)      # set_primary_serial only

and `define()` hands the tool the file that was written.  The writer (`xml_utils.py` over
ElementTree 1.2.6, not among the sources) is modelled from ElementTree's `_write`:

* an element is `<tag`, then each attribute as ` k="v"` in the order of `items.sort()`, then
  ` />` when it has neither text nor children, and otherwise `>`, its text, its children and
  `</tag>`;
* `_escape_attrib` writes `&`, `'`, `"`, `<` and `>` in a value as references, and
  `_escape_cdata` writes `&`, `<` and `>` in a text as references;
* an element's tail is not written: the model has none (`Markup.lean`).

The model of the setters keeps the edited document as it is across the write and the read back,
on the strength of the spec's round-trip property (§4.1, §8 property 1).  This module proves that
property of the two models: parsing what `write` produces gives back the document, with each
element's attributes in the writer's order and the same attribute dictionaries
(`parse_write`).  It holds for the `writable` documents: XML names as tags and attribute names,
distinct attribute names in each element, no text `""`, and no character that the parser's
normalisation changes, that is no carriage return anywhere and no tab or newline in an
attribute value, which ElementTree 1.2.6 writes raw and the parser reads back as a space.

The proof reads the written text back piece by piece, in the prefix form
`reader (piece ++ rest) = ... rest`: a name (`name_append`), an escaped value
(`attValue_escapeAttrib`), an attribute list (`attributes_writeItems`), an escaped text
(`content_escapeCdata`), and, by one induction over the tree, the elements and their children
(`elementWith_write`, `content_writeList`).
-/
import LibvirtXml.Markup
import Mathlib.Data.List.Sort

namespace LibvirtXml

namespace Markup

/-! ## 1. The writer -/

/-- `_escape_cdata`, for one character. -/
def escapeCdataChar : Char → List Char
  | '&' => ['&', 'a', 'm', 'p', ';']
  | '<' => ['&', 'l', 't', ';']
  | '>' => ['&', 'g', 't', ';']
  | c => [c]

/-- `_escape_cdata`: the text of an element as written. -/
def escapeCdata (t : List Char) : List Char := t.flatMap escapeCdataChar

/-- `_escape_attrib`, for one character. -/
def escapeAttribChar : Char → List Char
  | '&' => ['&', 'a', 'm', 'p', ';']
  | '\x27' => ['&', 'a', 'p', 'o', 's', ';']
  | '"' => ['&', 'q', 'u', 'o', 't', ';']
  | '<' => ['&', 'l', 't', ';']
  | '>' => ['&', 'g', 't', ';']
  | c => [c]

/-- `_escape_attrib`: an attribute value as written. -/
def escapeAttrib (v : List Char) : List Char := v.flatMap escapeAttribChar

/-- Python's `<` on strings: lexicographic, by code point. -/
def pyLt : List Char → List Char → Bool
  | [], [] => false
  | [], _ :: _ => true
  | _ :: _, [] => false
  | a :: as, b :: bs => a.toNat < b.toNat || (a == b && pyLt as bs)

/-- Python's order on `(key, value)` pairs, which `items.sort()` follows. -/
def itemLe (a b : String × String) : Bool :=
  pyLt a.1.data b.1.data || (a.1 == b.1 && !pyLt b.2.data a.2.data)

/-- `items.sort()`. -/
def sortItems (items : List (String × String)) : List (String × String) :=
  items.insertionSort fun a b => itemLe a b = true

/-- One attribute as written: ` k="v"`. -/
def writeItem (item : String × String) : List Char :=
  ' ' :: (item.1.toList ++ '=' :: '"' :: (escapeAttrib item.2.toList ++ ['"']))

/-- The attributes as written, in the order given. -/
def writeItems (items : List (String × String)) : List Char := items.flatMap writeItem

mutual
/-- **`ElementTree._write`** of an element, which has no tail: `if node.text or len(node)` the
element is written open, with its text and children, and otherwise closed as ` />`. -/
def write : Element → List Char
  | ⟨tag, attrib, text, children⟩ =>
    '<' :: (tag.toList ++ (writeItems (sortItems attrib) ++
      if text.any (· != "") || !children.isEmpty then
        '>' :: (escapeCdata (text.getD "").toList ++ (writeList children ++
          '<' :: '/' :: (tag.toList ++ ['>'])))
      else [' ', '/', '>']))
/-- The children of an element, written one after the other. -/
def writeList : List Element → List Char
  | [] => []
  | e :: es => write e ++ writeList es
end

/-! ## 2. What reads back -/

/-- An XML name: a name-start character, then name characters. -/
def isName (s : String) : Bool :=
  match s.toList with
  | c :: cs => isNameStart c && cs.all isNameChar
  | [] => false

/-- A character of an attribute value that the parser reads back as itself. -/
def valueSafe (c : Char) : Bool := isXmlChar c && c != '\t' && c != '\n' && c != '\r'

/-- A character of a text that the parser reads back as itself. -/
def textSafe (c : Char) : Bool := isXmlChar c && c != '\r'

/-- An attribute whose name is an XML name and whose value reads back. -/
def itemWritable (item : String × String) : Bool :=
  isName item.1 && item.2.toList.all valueSafe

mutual
/-- **The documents that survive a write and a read.** -/
def writable : Element → Bool
  | ⟨tag, attrib, text, children⟩ =>
    isName tag && decide (attrib.map Prod.fst).Nodup && attrib.all itemWritable &&
      text != some "" && (text.getD "").toList.all textSafe && writableList children
/-- Every element of a list of children is `writable`. -/
def writableList : List Element → Bool
  | [] => true
  | e :: es => writable e && writableList es
end

mutual
/-- The document with each element's attributes in the writer's order. -/
def sortTree : Element → Element
  | ⟨tag, attrib, text, children⟩ => ⟨tag, sortItems attrib, text, sortForest children⟩
/-- `sortTree` on each child. -/
def sortForest : List Element → List Element
  | [] => []
  | e :: es => sortTree e :: sortForest es
end

theorem sortForest_eq_map (es : List Element) : sortForest es = es.map sortTree := by
  induction es with
  | nil => rfl
  | cons e es ih => rw [sortForest, ih, List.map_cons]

@[simp] theorem tag_sortTree : ∀ e : Element, (sortTree e).tag = e.tag
  | ⟨_, _, _, _⟩ => rfl

@[simp] theorem text_sortTree : ∀ e : Element, (sortTree e).text = e.text
  | ⟨_, _, _, _⟩ => rfl

/-! ## 3. Characters and names -/

section Chars

variable {c : Char}

theorem isSpace_of_isNameStart (h : isNameStart c = true) : isSpace c = false := by
  cases hs : isSpace c
  · rfl
  · simp only [isSpace, Bool.or_eq_true, beq_iff_eq] at hs
    rcases hs with ((rfl | rfl) | rfl) | rfl <;> exact absurd h (by decide)

theorem isNameStart_ne (h : isNameStart c = true) : c ≠ '>' ∧ c ≠ '/' ∧ c ≠ '!' ∧ c ≠ '?' := by
  refine ⟨?_, ?_, ?_, ?_⟩ <;> rintro rfl <;> exact absurd h (by decide)

theorem isName_cons {t : String} (ht : isName t = true) :
    ∃ c cs, t = ⟨c :: cs⟩ ∧ isNameStart c = true ∧ ∀ x ∈ cs, isNameChar x = true := by
  obtain ⟨_ | ⟨c, cs⟩⟩ := t
  · simp [isName] at ht
  · exact ⟨c, cs, rfl, by simpa [isName, String.toList] using ht⟩

/-- **A name reads back whole** when the character after it is no name character. -/
theorem name_append {t : String} (ht : isName t = true) (hc : isNameChar c = false)
    (rest : List Char) : name (t.toList ++ c :: rest) = .ok (t, c :: rest) := by
  obtain ⟨c₀, cs, rfl, h₀, hcs⟩ := isName_cons ht
  simp [name, h₀, List.takeWhile_append_of_pos hcs, List.dropWhile_append_of_pos hcs, hc]

/-- The written form of a text character is the character itself, or a reference. -/
theorem escapeCdataChar_cases (c : Char) :
    (c ≠ '&' ∧ c ≠ '<' ∧ c ≠ '>' ∧ escapeCdataChar c = [c]) ∨
      ∃ r, escapeCdataChar c = '&' :: r := by
  by_cases h : c = '&' ∨ c = '<' ∨ c = '>'
  · rcases h with rfl | rfl | rfl <;> exact .inr ⟨_, rfl⟩
  · simp only [not_or] at h
    exact .inl ⟨h.1, h.2.1, h.2.2, by unfold escapeCdataChar; split <;> simp_all⟩

/-- A written text never starts with `>`. -/
theorem head_escapeCdata (t : List Char) {rest : List Char} (hr : rest.head? ≠ some '>') :
    (escapeCdata t ++ rest).head? ≠ some '>' := by
  cases t with
  | nil => exact hr
  | cons c t =>
    rw [escapeCdata, List.flatMap_cons, List.append_assoc]
    rcases escapeCdataChar_cases c with ⟨-, -, hgt, hc⟩ | ⟨r, hc⟩ <;> simp [hc, *]

/-- So a written text followed by markup never holds `]]>` at its start. -/
theorem take_two_escapeCdata (t : List Char) {rest : List Char} (hr : rest.head? = some '<') :
    (escapeCdata t ++ rest).take 2 ≠ [']', '>'] := by
  cases t with
  | nil =>
    obtain ⟨r, rfl⟩ : ∃ r, rest = '<' :: r := by cases rest <;> simp_all
    simp [escapeCdata]
  | cons c t =>
    have hhead : (escapeCdata t ++ rest).head? ≠ some '>' := head_escapeCdata t (by simp [hr])
    rw [escapeCdata, List.flatMap_cons, List.append_assoc, ← escapeCdata]
    rcases escapeCdataChar_cases c with ⟨-, -, -, hc⟩ | ⟨r, hc⟩
    · rw [hc]
      cases h : escapeCdata t ++ rest with
      | nil => simp
      | cons d l => rw [h] at hhead; simp_all
    · simp [hc]

end Chars

/-! ## 4. Reading the pieces back -/

/-- An escaped value character reads back as itself. -/
theorem attValue_escapeAttribChar {c : Char} (hc : valueSafe c = true) (rest : List Char) :
    attValue '"' (escapeAttribChar c ++ rest) none =
      (attValue '"' rest none).map fun (v, rest) => (c :: v, rest) := by
  by_cases hamp : c = '&'; · subst hamp; rfl
  by_cases hapos : c = '\x27'; · subst hapos; rfl
  by_cases hquot : c = '"'; · subst hquot; rfl
  by_cases hlt : c = '<'; · subst hlt; rfl
  by_cases hgt : c = '>'; · subst hgt; rfl
  have hesc : escapeAttribChar c = [c] := by unfold escapeAttribChar; split <;> simp_all
  simp only [valueSafe, Bool.and_eq_true, bne_iff_ne, ne_eq] at hc
  obtain ⟨⟨⟨hx, htab⟩, hnl⟩, hcr⟩ := hc
  simp [hesc, attValue, hquot, hlt, hamp, hx, ite_isSpace_self htab hnl hcr]

/-- **An escaped value reads back**, and the scan stops right after its closing quote. -/
theorem attValue_escapeAttrib (rest : List Char) :
    ∀ v : List Char, (∀ c ∈ v, valueSafe c = true) →
      attValue '"' (escapeAttrib v ++ '"' :: rest) none = .ok (v, rest)
  | [], _ => rfl
  | c :: v, h => by
    rw [escapeAttrib, List.flatMap_cons, List.append_assoc, ← escapeAttrib,
      attValue_escapeAttribChar (h c (List.mem_cons_self _ _)),
      attValue_escapeAttrib rest v (fun x hx => h x (List.mem_cons_of_mem _ hx))]
    rfl

theorem writeItem_append (k v : String) (rest : List Char) :
    writeItem (k, v) ++ rest = ' ' :: (k.toList ++ '=' :: '"' :: (escapeAttrib v.toList ++ '"' :: rest)) := by
  simp [writeItem]

/-- One written attribute reads back, when its name is new. -/
theorem attributes_writeItem (fuel : Nat) (acc : List (String × String)) {item : String × String}
    (hw : itemWritable item = true) (hnew : item.1 ∉ acc.map Prod.fst) (rest : List Char) :
    attributes (fuel + 1) acc (writeItem item ++ rest) = attributes fuel (acc ++ [item]) rest := by
  obtain ⟨k, ⟨l⟩⟩ := item
  simp only [itemWritable, Bool.and_eq_true, List.all_eq_true] at hw
  obtain ⟨c₀, cs, rfl, h₀, -⟩ := isName_cons hw.1
  obtain ⟨hgt, hsl, -, -⟩ := isNameStart_ne h₀
  have hsp : isSpace ' ' = true := rfl
  have hdrop : (' ' :: c₀ :: (cs ++ '=' :: '"' :: (escapeAttrib l ++ '"' :: rest))).dropWhile
      isSpace = c₀ :: (cs ++ '=' :: '"' :: (escapeAttrib l ++ '"' :: rest)) := by
    simp [hsp, isSpace_of_isNameStart h₀]
  have hname : name (c₀ :: (cs ++ '=' :: '"' :: (escapeAttrib l ++ '"' :: rest))) =
      .ok (⟨c₀ :: cs⟩, '=' :: '"' :: (escapeAttrib l ++ '"' :: rest)) :=
    name_append hw.1 (c := '=') (by decide) _
  have hval : attValue '"' (escapeAttrib l ++ '"' :: rest) none = .ok (l, rest) :=
    attValue_escapeAttrib rest l hw.2
  have hany : (acc.any fun x => x.1 == ⟨c₀ :: cs⟩) = false := by
    rw [List.any_eq_false]; rintro x hx h
    exact hnew (List.mem_map.mpr ⟨x, hx, by simpa using h⟩)
  rw [writeItem_append]
  show attributes (fuel + 1) acc (' ' :: c₀ :: (cs ++ '=' :: '"' ::
    (escapeAttrib l ++ '"' :: rest))) = _
  rw [attributes, hdrop]
  split
  · rename_i h; exact absurd (List.cons.inj h).1 hgt
  · rename_i h; exact absurd (List.cons.inj h).1 hsl
  · rename_i h; cases h
  · simp [hsp, hname, hval, hany, isSpace]

/-- **The written attributes read back**, in the order written, one unit of fuel each. -/
theorem attributes_writeItems (ending : List Char) :
    ∀ (items acc : List (String × String)) (fuel : Nat), items.all itemWritable = true →
      ((acc ++ items).map Prod.fst).Nodup →
      attributes (fuel + items.length) acc (writeItems items ++ ending) =
        attributes fuel (acc ++ items) ending
  | [], acc, fuel, _, _ => by simp [writeItems]
  | item :: items, acc, fuel, hw, hnd => by
    simp only [List.all_cons, Bool.and_eq_true] at hw
    have hnew : item.1 ∉ acc.map Prod.fst := fun h => by
      rw [List.map_append, List.nodup_append] at hnd
      exact hnd.2.2 h (List.mem_cons_self _ _)
    rw [List.length_cons, ← Nat.add_assoc, writeItems, List.flatMap_cons, List.append_assoc,
      ← writeItems, attributes_writeItem _ _ hw.1 hnew,
      attributes_writeItems ending items (acc ++ [item]) fuel hw.2 (by simpa using hnd)]
    simp

theorem length_le_writeItems (items : List (String × String)) :
    items.length ≤ (writeItems items).length := by
  induction items with
  | nil => simp [writeItems]
  | cons item items ih =>
    simp only [writeItems, List.flatMap_cons, List.length_append, List.length_cons] at ih ⊢
    simp only [writeItem, List.length_cons]
    omega

/-- Character data that `content` takes as it is. -/
theorem content_char {c : Char} (hc : isXmlChar c = true) (hlt : c ≠ '<') (hamp : c ≠ '&')
    {rest : List Char} (hend : ¬ (c = ']' ∧ rest.take 2 = [']', '>'])) (fuel : Nat)
    (tag : String) (text : Option (List Char)) (children : List Element) :
    content (fuel + 1) tag text children (c :: rest) =
      content fuel tag (addText text children [c]) children rest := by
  rw [content, if_neg hlt, if_neg hamp, if_neg hend, if_pos hc]

/-- An escaped text character reads back as itself. -/
theorem content_escapeCdataChar {c : Char} (hc : textSafe c = true) {rest : List Char}
    (hend : ¬ (c = ']' ∧ rest.take 2 = [']', '>'])) (fuel : Nat) (tag : String)
    (text : Option (List Char)) (children : List Element) :
    content (fuel + 1) tag text children (escapeCdataChar c ++ rest) =
      content fuel tag (addText text children [c]) children rest := by
  by_cases hamp : c = '&'; · subst hamp; rfl
  by_cases hlt : c = '<'; · subst hlt; rfl
  by_cases hgt : c = '>'; · subst hgt; rfl
  have hesc : escapeCdataChar c = [c] := by unfold escapeCdataChar; split <;> simp_all
  simp only [textSafe, Bool.and_eq_true] at hc
  rw [hesc, List.singleton_append, content_char hc.1 hlt hamp hend]

/-- **A written text reads back**, one unit of fuel a character, up to the markup after it. -/
theorem content_escapeCdata (fuel : Nat) (tag : String) {rest : List Char}
    (hr : rest.head? = some '<') :
    ∀ (t : List Char) (text : Option (List Char)), t.all textSafe = true →
      content (fuel + t.length) tag text [] (escapeCdata t ++ rest) =
        content fuel tag (if t = [] then text else some (text.getD [] ++ t)) [] rest
  | [], text, _ => by simp [escapeCdata]
  | c :: t, text, h => by
    simp only [List.all_cons, Bool.and_eq_true] at h
    have hend : ¬ (c = ']' ∧ (escapeCdata t ++ rest).take 2 = [']', '>']) :=
      fun hc => take_two_escapeCdata t hr hc.2
    rw [List.length_cons, ← Nat.add_assoc, escapeCdata, List.flatMap_cons, List.append_assoc,
      ← escapeCdata, content_escapeCdataChar h.1 hend, content_escapeCdata fuel tag hr t _ h.2]
    cases t <;> simp [addText]

/-- After a `<`, a name opens a child element. -/
theorem opening_of_isNameStart {c : Char} (hc : isNameStart c = true) (rest : List Char) :
    opening (c :: rest) = .child (c :: rest) := by
  obtain ⟨-, h₁, h₂, h₃⟩ := isNameStart_ne hc
  unfold opening; split <;> simp_all

/-- **The end tag of the element being read closes it.** -/
theorem content_endTag {tag : String} (ht : isName tag = true) (fuel : Nat)
    (text : Option (List Char)) (children : List Element) (rest : List Char) :
    content (fuel + 1) tag text children ('<' :: '/' :: (tag.toList ++ '>' :: rest)) =
      .ok ((text, children), rest) := by
  have hn : name (tag.data ++ '>' :: rest) = .ok (tag, '>' :: rest) :=
    name_append ht (by decide) rest
  simp [content, opening, hn, isSpace]

/-- What follows a tag's name when it is written: a blank, or the tag's closing character. -/
theorem writeItems_append_cons (items : List (String × String)) (c : Char) (rest : List Char) :
    ∃ d r, writeItems items ++ c :: rest = d :: r ∧ (d = ' ' ∨ d = c) := by
  cases items with
  | nil => exact ⟨c, rest, rfl, .inr rfl⟩
  | cons item items =>
    exact ⟨' ', (writeItem item).tail ++ (writeItems items ++ c :: rest),
      by simp [writeItems, writeItem], .inl rfl⟩

section StartTag

variable {tag : String} (ht : isName tag = true) {items : List (String × String)}
  (hw : items.all itemWritable = true) (hnd : (items.map Prod.fst).Nodup)
  (k : String → Option (List Char) → List Element → List Char →
    Step (Option (List Char) × List Element))

include ht hw hnd in
/-- The name and the attributes of a written start tag read back, up to its closing `c`. -/
theorem startTag_append {c : Char} (hc : c = ' ' ∨ c = '>') (rest : List Char) :
    name (tag.toList ++ (writeItems items ++ c :: rest)) =
        .ok (tag, writeItems items ++ c :: rest) ∧
      ∃ m, attributes ((writeItems items ++ c :: rest).length + 1) [] (writeItems items ++ c :: rest) =
        attributes (m + 1) items (c :: rest) := by
  obtain ⟨d, r, hdr, hd⟩ := writeItems_append_cons items c rest
  refine ⟨?_, (writeItems items ++ c :: rest).length - items.length, ?_⟩
  · rw [hdr]
    exact name_append ht (by rcases hd with rfl | rfl <;> rcases hc with rfl | rfl <;> decide) r
  · have hle := length_le_writeItems items
    have hfuel : (writeItems items ++ c :: rest).length + 1 =
        ((writeItems items ++ c :: rest).length - items.length + 1) + items.length := by
      simp only [List.length_append, List.length_cons]; omega
    rw [hfuel, attributes_writeItems _ items [] _ hw (by simpa using hnd)]
    rfl

include ht hw hnd in
/-- A written start tag closed by ` />` reads back as an element with no content. -/
theorem elementWith_selfClose (rest : List Char) :
    elementWith k (tag.toList ++ (writeItems items ++ (' ' :: '/' :: '>' :: rest))) =
      .ok (⟨tag, items, none, []⟩, rest) := by
  obtain ⟨hname, m, hattr⟩ := startTag_append ht hw hnd (c := ' ') (.inl rfl) ('/' :: '>' :: rest)
  simp only [elementWith, hname, hattr]
  rfl

include ht hw hnd in
/-- A written start tag closed by `>` reads back, and the content reader takes over. -/
theorem elementWith_open (rest : List Char) :
    elementWith k (tag.toList ++ (writeItems items ++ ('>' :: rest))) =
      match k tag none [] rest with
      | .error e => .error e
      | .ok ((text, children), rest) => .ok (⟨tag, items, text.map String.mk, children⟩, rest) := by
  obtain ⟨hname, m, hattr⟩ := startTag_append ht hw hnd (c := '>') (.inr rfl) rest
  simp only [elementWith, hname, hattr]
  rfl

end StartTag

/-- After a `<`, a name opens a child element, which `elementWith` reads. -/
theorem content_child {c : Char} (hc : isNameStart c = true) {fuel : Nat} {rest rest' : List Char}
    {child : Element} (h : elementWith (content fuel) (c :: rest) = .ok (child, rest'))
    (tag : String) (text : Option (List Char)) (children : List Element) :
    content (fuel + 1) tag text children ('<' :: c :: rest) =
      content fuel tag text (children ++ [child]) rest' := by
  rw [content, if_pos rfl, opening_of_isNameStart hc]
  simp only [h]

/-! ## 5. Whole documents -/

theorem writable_mk {tag : String} {attrib : List (String × String)} {text : Option String}
    {children : List Element} :
    writable ⟨tag, attrib, text, children⟩ = true ↔ isName tag = true ∧
      (attrib.map Prod.fst).Nodup ∧ attrib.all itemWritable = true ∧ text ≠ some "" ∧
      (text.getD "").toList.all textSafe = true ∧ writableList children = true := by
  simp only [writable, Bool.and_eq_true, decide_eq_true_eq, bne_iff_ne, ne_eq, and_assoc]

/-- A written element starts with `<` and its tag's first character. -/
theorem write_cons {e : Element} (he : writable e = true) :
    ∃ c r, isNameStart c = true ∧ write e = '<' :: c :: r := by
  obtain ⟨tag, attrib, text, children⟩ := e
  obtain ⟨c, cs, rfl, hc, -⟩ := isName_cons (writable_mk.mp he).1
  exact ⟨c, (write ⟨⟨c :: cs⟩, attrib, text, children⟩).drop 2, hc, by simp [write]⟩

theorem length_le_escapeCdata (t : List Char) : t.length ≤ (escapeCdata t).length := by
  induction t with
  | nil => simp [escapeCdata]
  | cons c t ih =>
    rw [escapeCdata, List.flatMap_cons, List.length_append, ← escapeCdata, List.length_cons]
    rcases escapeCdataChar_cases c with ⟨-, -, -, h⟩ | ⟨r, h⟩ <;> rw [h] <;> simp <;> omega

theorem length_le_writeList (cs : List Element) : cs.length ≤ (writeList cs).length := by
  induction cs with
  | nil => simp [writeList]
  | cons e cs ih =>
    have : 1 ≤ (write e).length := by obtain ⟨_, _, _, _⟩ := e; simp [write]
    simp only [writeList, List.length_append, List.length_cons]
    omega

theorem perm_sortItems (items : List (String × String)) : (sortItems items).Perm items :=
  List.perm_insertionSort _ items

/-- The attributes as written: `items.sort()`, still writable and with distinct names. -/
theorem sortItems_writable {attrib : List (String × String)}
    (hw : attrib.all itemWritable = true) (hnd : (attrib.map Prod.fst).Nodup) :
    (sortItems attrib).all itemWritable = true ∧ ((sortItems attrib).map Prod.fst).Nodup :=
  ⟨List.all_eq_true.mpr fun x hx => List.all_eq_true.mp hw x ((perm_sortItems attrib).mem_iff.mp hx),
    ((perm_sortItems attrib).map Prod.fst).nodup_iff.mpr hnd⟩

/-! No carriage return in a written writable document, so end-of-line handling keeps it. -/

theorem cr_mem_escapeCdata {t : List Char} (h : '\r' ∈ escapeCdata t) : '\r' ∈ t := by
  obtain ⟨c, hc, hmem⟩ := List.mem_flatMap.mp h
  by_cases hs : c = '&' ∨ c = '<' ∨ c = '>'
  · rcases hs with rfl | rfl | rfl <;> simp [escapeCdataChar] at hmem
  · simp only [not_or] at hs
    have he : escapeCdataChar c = [c] := by unfold escapeCdataChar; split <;> simp_all
    rw [he, List.mem_singleton] at hmem; exact hmem ▸ hc

theorem cr_mem_escapeAttrib {v : List Char} (h : '\r' ∈ escapeAttrib v) : '\r' ∈ v := by
  obtain ⟨c, hc, hmem⟩ := List.mem_flatMap.mp h
  by_cases hs : c = '&' ∨ c = '\x27' ∨ c = '"' ∨ c = '<' ∨ c = '>'
  · rcases hs with rfl | rfl | rfl | rfl | rfl <;> simp [escapeAttribChar] at hmem
  · simp only [not_or] at hs
    have he : escapeAttribChar c = [c] := by unfold escapeAttribChar; split <;> simp_all
    rw [he, List.mem_singleton] at hmem; exact hmem ▸ hc

theorem cr_not_mem_name {t : String} (ht : isName t = true) : '\r' ∉ t.toList := by
  obtain ⟨c, cs, rfl, hc, hcs⟩ := isName_cons ht
  rintro (_ | ⟨_, h⟩)
  · exact absurd hc (by decide)
  · exact absurd (hcs _ h) (by decide)

theorem cr_not_mem_writeItems {items : List (String × String)}
    (hw : items.all itemWritable = true) : '\r' ∉ writeItems items := by
  simp only [writeItems, List.mem_flatMap, not_exists, not_and]
  intro item hitem hmem
  have hi := List.all_eq_true.mp hw item hitem
  simp only [itemWritable, Bool.and_eq_true, List.all_eq_true] at hi
  simp only [writeItem, List.mem_cons, List.mem_append, List.mem_singleton] at hmem
  rcases hmem with h | h | h | h | h | h
  · exact absurd h (by decide)
  · exact cr_not_mem_name hi.1 h
  · exact absurd h (by decide)
  · exact absurd h (by decide)
  · have := hi.2 _ (cr_mem_escapeAttrib h); simp [valueSafe] at this
  · exact absurd h (by decide)

mutual
theorem cr_not_mem_write : ∀ e : Element, writable e = true → '\r' ∉ write e
  | ⟨tag, attrib, text, children⟩, he => by
    obtain ⟨htag, hnd, hitems, -, htext, hch⟩ := writable_mk.mp he
    have hsorted := (sortItems_writable hitems hnd).1
    have hname := cr_not_mem_name htag
    have hitems' := cr_not_mem_writeItems hsorted
    have hchildren := cr_not_mem_writeList children hch
    intro h
    simp only [write, List.mem_cons, List.mem_append] at h
    rcases h with h | h | h | h
    · exact absurd h (by decide)
    · exact hname h
    · exact hitems' h
    · split at h
      · simp only [List.mem_cons, List.mem_append, List.mem_singleton] at h
        rcases h with h | h | h | h | h | h | h
        · exact absurd h (by decide)
        · have := List.all_eq_true.mp htext _ (cr_mem_escapeCdata h); simp [textSafe] at this
        · exact hchildren h
        · exact absurd h (by decide)
        · exact absurd h (by decide)
        · exact hname h
        · exact absurd h (by decide)
      · simp at h
theorem cr_not_mem_writeList : ∀ cs : List Element, writableList cs = true → '\r' ∉ writeList cs
  | [], _ => by simp [writeList]
  | e :: es, h => by
    simp only [writableList, Bool.and_eq_true] at h
    simp only [writeList, List.mem_append, not_or]
    exact ⟨cr_not_mem_write e h.1, cr_not_mem_writeList es h.2⟩
end

/-- The text an element's content reader collects from its written text. -/
theorem map_mk_collected {text : Option String} (htext : text ≠ some "") :
    (if (text.getD "").toList = [] then none
      else some ((none : Option (List Char)).getD [] ++ (text.getD "").toList)).map String.mk =
      text := by
  cases text with
  | none => rfl
  | some s =>
    obtain ⟨l⟩ := s
    have hl : l ≠ [] := fun h => htext (by subst h; rfl)
    simp [String.toList, hl]

theorem head_writeList_append (cs : List Element) (r : List Char) :
    (writeList cs ++ '<' :: r).head? = some '<' := by
  cases cs with
  | nil => rfl
  | cons e es => obtain ⟨_, _, _, _⟩ := e; simp [writeList, write]

mutual
/-- **A written element reads back**, as `sortTree` of itself, with the fuel its length gives. -/
theorem elementWith_write : ∀ (e : Element) (fuel : Nat) (rest : List Char), writable e = true →
    (write e).length ≤ fuel + 2 →
    elementWith (content fuel) ((write e).tail ++ rest) = .ok (sortTree e, rest)
  | ⟨tag, attrib, text, children⟩, fuel, rest, he, hlen => by
    obtain ⟨htag, hnd, hitems, htext, hsafe, hch⟩ := writable_mk.mp he
    obtain ⟨hsw, hsnd⟩ := sortItems_writable hitems hnd
    by_cases hopen : (text.any (· != "") || !children.isEmpty) = true
    · -- written open: the text, the children and the end tag follow `>`
      set t := (text.getD "").toList
      have hbody : (write ⟨tag, attrib, text, children⟩).tail ++ rest =
          tag.toList ++ (writeItems (sortItems attrib) ++ ('>' :: (escapeCdata t ++
            (writeList children ++ ('<' :: '/' :: (tag.toList ++ '>' :: rest)))))) := by
        simp [write, hopen, t]
      have hL : (write ⟨tag, attrib, text, children⟩).length = 2 * tag.data.length +
          (writeItems (sortItems attrib)).length + (escapeCdata t).length +
          (writeList children).length + 5 := by
        simp [write, hopen, t]; omega
      have hpos : 1 ≤ tag.data.length := by
        obtain ⟨c, cs, rfl, -⟩ := isName_cons htag; simp
      have h₁ := length_le_escapeCdata t
      have h₂ := length_le_writeList children
      obtain ⟨g, rfl⟩ : ∃ g, fuel = g + 1 + children.length + t.length := ⟨fuel - 1 -
        children.length - t.length, by omega⟩
      rw [hbody, elementWith_open htag hsw hsnd,
        content_escapeCdata _ _ (head_writeList_append children _) t none hsafe,
        content_writeList children (g + 1) tag _ [] _ hch (by omega), content_endTag htag]
      simp only [List.nil_append, sortTree, map_mk_collected htext]
    · -- written closed, ` />`: no text and no children
      rw [Bool.or_eq_true, not_or] at hopen
      have hnone : text = none := by
        cases text with
        | none => rfl
        | some s => exact absurd (by simpa using hopen.1) htext
      subst hnone
      cases children with
      | cons c cs => simp at hopen
      | nil =>
        have hbody : (write ⟨tag, attrib, none, []⟩).tail ++ rest =
            tag.toList ++ (writeItems (sortItems attrib) ++ (' ' :: '/' :: '>' :: rest)) := by
          simp [write]
        rw [hbody, elementWith_selfClose htag hsw hsnd]
        rfl
/-- **Written children read back**, one unit of fuel each besides their own. -/
theorem content_writeList : ∀ (cs : List Element) (fuel : Nat) (tag : String)
    (text : Option (List Char)) (children : List Element) (rest : List Char),
    writableList cs = true → (writeList cs).length ≤ fuel + cs.length →
    content (fuel + cs.length) tag text children (writeList cs ++ rest) =
      content fuel tag text (children ++ sortForest cs) rest
  | [], fuel, tag, text, children, rest, _, _ => by simp [writeList, sortForest]
  | e :: es, fuel, tag, text, children, rest, hw, hlen => by
    simp only [writableList, Bool.and_eq_true] at hw
    obtain ⟨c, r, hc, hwe⟩ := write_cons hw.1
    have hle : (write e).length ≤ (fuel + es.length) + 2 := by
      simp only [writeList, List.length_append, List.length_cons] at hlen; omega
    have hles : (writeList es).length ≤ fuel + es.length := by
      simp only [writeList, List.length_append, List.length_cons, hwe] at hlen; omega
    have helem := elementWith_write e (fuel + es.length) (writeList es ++ rest) hw.1 hle
    simp only [hwe, List.tail_cons, List.cons_append] at helem
    rw [writeList, List.length_cons, ← Nat.add_assoc, List.append_assoc, hwe, List.cons_append,
      List.cons_append, content_child hc helem]
    simp only [content_writeList es fuel tag text _ rest hw.2 hles, sortForest,
      List.append_assoc, List.singleton_append]
end

/-- Reordering attributes with distinct names keeps every lookup. -/
theorem lookup_eq_of_perm {l₁ l₂ : List (String × String)} (hp : l₁.Perm l₂)
    (hnd : (l₁.map Prod.fst).Nodup) (k : String) : l₁.lookup k = l₂.lookup k := by
  induction hp with
  | nil => rfl
  | cons x _ ih =>
    obtain ⟨a, b⟩ := x
    simp only [List.map_cons, List.nodup_cons] at hnd
    simp only [List.lookup_cons, ih hnd.2]
  | swap x y l =>
    obtain ⟨a, b⟩ := x
    obtain ⟨a', b'⟩ := y
    simp only [List.map_cons, List.nodup_cons, List.mem_cons] at hnd
    have hne : a' ≠ a := fun h => hnd.1 (.inl h)
    simp only [List.lookup_cons]
    split <;> split <;> simp_all
  | trans h₁ _ ih₁ ih₂ => rw [ih₁ hnd, ih₂ ((h₁.map Prod.fst).nodup_iff.mp hnd)]

/-! ## 6. Edits that keep a document writable

The façade changes a document only by a few tree edits: set an attribute, append a child, edit or
remove a child, write an element's text.  Each keeps a writable document writable when what it
writes reads back; the façade's own edits are assembled from them in `VmXml/Writable.lean`. -/

/-- An attribute value that reads back as itself. -/
def valueWritable (v : String) : Bool := v.toList.all valueSafe

/-- A text that reads back as itself: not empty, since an element with the text `""` and no
children is written ` />` and reads back with no text, and of characters that read back. -/
def textWritable (v : String) : Bool := v != "" && v.toList.all textSafe

theorem writableList_iff {cs : List Element} :
    writableList cs = true ↔ ∀ c ∈ cs, writable c = true := by
  induction cs with
  | nil => simp [writableList]
  | cons c cs ih => simp [writableList, ih]

/-- A new empty element with a name for a tag and writable attributes is writable. -/
theorem writable_leaf {t : String} {a : List (String × String)} (ht : isName t = true)
    (hnd : (a.map Prod.fst).Nodup) (ha : a.all itemWritable = true) :
    writable ⟨t, a, none, []⟩ = true :=
  writable_mk.mpr ⟨ht, hnd, ha, by simp, rfl, rfl⟩

/-- `SubElement(parent, t, {k: v})`'s new child, for names `t`, `k` and a value that reads back. -/
theorem writable_leaf_single {t k v : String} (ht : isName t = true) (hk : isName k = true)
    (hv : valueWritable v = true) : writable ⟨t, [(k, v)], none, []⟩ = true :=
  writable_leaf ht (List.nodup_singleton k)
    (show (isName k && valueWritable v && true) = true by rw [hk, hv]; rfl)

section Edits

variable {e : Element}

/-- Only the children change: the element stays writable when they all are. -/
theorem writable_children (he : writable e = true) {cs : List Element}
    (hcs : ∀ c ∈ cs, writable c = true) : writable { e with children := cs } = true := by
  obtain ⟨tag, attrib, text, children⟩ := e
  obtain ⟨h₁, h₂, h₃, h₄, h₅, -⟩ := writable_mk.mp he
  exact writable_mk.mpr ⟨h₁, h₂, h₃, h₄, h₅, writableList_iff.mpr hcs⟩

theorem writable_of_mem_children (he : writable e = true) {c : Element} (hc : c ∈ e.children) :
    writable c = true := by
  obtain ⟨tag, attrib, text, children⟩ := e
  exact writableList_iff.mp (writable_mk.mp he).2.2.2.2.2 c hc

/-- `e.set(k, v)`, for a name `k` and a value that reads back. -/
theorem writable_set (he : writable e = true) {k v : String} (hk : isName k = true)
    (hv : valueWritable v = true) : writable (e.set k v) = true := by
  obtain ⟨tag, attrib, text, children⟩ := e
  obtain ⟨h₁, h₂, h₃, h₄, h₅, h₆⟩ := writable_mk.mp he
  refine writable_mk.mpr ⟨h₁, nodup_keys_dictSet h₂ k v, List.all_eq_true.mpr fun x hx => ?_,
    h₄, h₅, h₆⟩
  rcases mem_dictSet hx with hx | rfl
  · exact List.all_eq_true.mp h₃ x hx
  · simpa [itemWritable, hk, valueWritable] using hv

/-- Writing a text that reads back. -/
theorem writable_text (he : writable e = true) {v : String} (hv : textWritable v = true) :
    writable { e with text := some v } = true := by
  obtain ⟨tag, attrib, text, children⟩ := e
  obtain ⟨h₁, h₂, h₃, -, -, h₆⟩ := writable_mk.mp he
  simp only [textWritable, Bool.and_eq_true, bne_iff_ne] at hv
  exact writable_mk.mpr ⟨h₁, h₂, h₃, by simpa using hv.1, hv.2, h₆⟩

/-- `SubElement(e, t, a)`, for a new child that is writable. -/
theorem writable_subElement (he : writable e = true) {t : String} {a : List (String × String)}
    (hc : writable ⟨t, a, none, []⟩ = true) : writable (e.subElement t a) = true :=
  writable_children he fun c hc' => by
    rcases List.mem_append.mp hc' with h | h
    · exact writable_of_mem_children he h
    · rw [List.mem_singleton.mp h]; exact hc

theorem writable_removeChild (he : writable e = true) (i : Nat) :
    writable (e.removeChild i) = true :=
  writable_children he fun _ hc => writable_of_mem_children he (List.mem_of_mem_eraseIdx hc)

variable {f : Element → Element} (hf : ∀ x, writable x = true → writable (f x) = true)
include hf

theorem writable_modifyChild (he : writable e = true) (i : Nat) :
    writable (e.modifyChild i f) = true := by
  refine writable_children he fun c hc => ?_
  obtain ⟨tag, attrib, text, children⟩ := e
  have hcs : ∀ c ∈ children, writable c = true := writableList_iff.mp (writable_mk.mp he).2.2.2.2.2
  clear he
  induction children generalizing i with
  | nil => simp at hc
  | cons x xs ih =>
    cases i with
    | zero =>
      rcases List.mem_cons.mp (by simpa using hc) with rfl | h
      · exact hf x (hcs x (List.mem_cons_self x xs))
      · exact hcs c (List.mem_cons_of_mem x h)
    | succ i =>
      rcases List.mem_cons.mp (by simpa using hc) with rfl | h
      · exact hcs c (List.mem_cons_self c xs)
      · exact ih i h fun c hc => hcs c (List.mem_cons_of_mem x hc)

/-- An edit in place, at any address, of a writable-keeping edit. -/
theorem writable_modifyAt : ∀ (p : Path) {d : Element}, writable d = true →
    writable (d.modifyAt p f) = true
  | [], _, hd => hf _ hd
  | _ :: p, _, hd => writable_modifyChild (fun _ hx => writable_modifyAt p hx) hd _

end Edits

end Markup

end LibvirtXml
