/-
# The markup under the documents

`vm_xml.py` never parses text itself.  `vmxml['xml'] = virsh.dumpxml(name)` and `VMXML.__init__`'s

    self.xml = u"<domain type='%s'></domain>" % hypervisor_type

hand a text to the document store (`base.py` and `xml_utils.py`, not among the sources), which
parses it with ElementTree.  The spec (§4.1) asks of that parse that text which is not
well-formed markup fails with a parse error; this module models it by the XML 1.0 rules that
ElementTree's parser, expat, enforces, for what domain XML uses:

* end-of-line handling first: `\r\n` and a lone `\r` become `\n`;
* names as XML 1.0 (fifth edition, §2.3) defines them: a `NameStartChar`, then `NameChar`s.
  Expat checks a non-ASCII name against the tables of the earlier editions, which allow a
  subset of these characters, so every name expat reads is read here; domain XML's names are
  ASCII;
* elements, with attributes in either quote, white space between attributes, no attribute
  twice, and an end tag that matches;
* character data, the five entity references and character references;
* attribute-value normalisation: a tab or a newline in a value reads as a space;
* comments, processing instructions and CDATA sections.

A `DOCTYPE` is refused: no DTD is modelled.  The parsed element keeps, as ElementTree does, the
text before its first child as `text`; the text after a child is that child's `tail`, which
`vm_xml.py` never reads, and is dropped.  The errors carry expat's messages.

Each piece is a step parser, `List Char → Except String (α × List Char)`, total by structural
recursion, or by a fuel bound that the input's length meets.
-/
import LibvirtXml.ElementTree

namespace LibvirtXml

namespace Markup

/-! ## 1. Characters -/

/-- XML white space. -/
def isSpace (c : Char) : Bool := c == ' ' || c == '\t' || c == '\n' || c == '\r'

/-- Whether the code point of `c` lies in one of `ranges`, each given by its least and greatest
code point. -/
def inRanges (ranges : List (Nat × Nat)) (c : Char) : Bool :=
  ranges.any fun r => r.1 ≤ c.toNat && c.toNat ≤ r.2

/-- The ranges of XML 1.0's `NameStartChar` (fifth edition, §2.3), in the production's order. -/
def nameStartRanges : List (Nat × Nat) :=
  [(0x3A, 0x3A), (0x41, 0x5A), (0x5F, 0x5F), (0x61, 0x7A), (0xC0, 0xD6), (0xD8, 0xF6),
    (0xF8, 0x2FF), (0x370, 0x37D), (0x37F, 0x1FFF), (0x200C, 0x200D), (0x2070, 0x218F),
    (0x2C00, 0x2FEF), (0x3001, 0xD7FF), (0xF900, 0xFDCF), (0xFDF0, 0xFFFD), (0x10000, 0xEFFFF)]

/-- What `NameChar` adds to `NameStartChar`: `-`, `.`, the digits, `#xB7` and two ranges of
combining characters. -/
def nameCharRanges : List (Nat × Nat) :=
  [(0x2D, 0x2D), (0x2E, 0x2E), (0x30, 0x39), (0xB7, 0xB7), (0x300, 0x36F), (0x203F, 0x2040)]

/-- XML 1.0's `NameStartChar`. -/
def isNameStart (c : Char) : Bool := inRanges nameStartRanges c

/-- XML 1.0's `NameChar`. -/
def isNameChar (c : Char) : Bool := isNameStart c || inRanges nameCharRanges c

/-- XML 1.0's `Char`: a tab, a newline, a carriage return, or any character from `#x20` up
other than `#xFFFE` and `#xFFFF`. -/
def isXmlChar (c : Char) : Bool :=
  c == '\t' || c == '\n' || c == '\r' ||
    (0x20 ≤ c.toNat && c.toNat != 0xFFFE && c.toNat != 0xFFFF)

/-- End-of-line handling, before anything else is read. -/
def normalizeNewlines : List Char → List Char
  | '\r' :: '\n' :: cs => '\n' :: normalizeNewlines cs
  | '\r' :: cs => '\n' :: normalizeNewlines cs
  | c :: cs => c :: normalizeNewlines cs
  | [] => []

/-- A digit's value, in any base up to 16. -/
def digitValue (c : Char) : Option Nat :=
  if c.isDigit then some (c.toNat - '0'.toNat)
  else if 'a' ≤ c ∧ c ≤ 'f' then some (c.toNat - 'a'.toNat + 10)
  else if 'A' ≤ c ∧ c ≤ 'F' then some (c.toNat - 'A'.toNat + 10)
  else none

/-- The character `&#n;` (base 10) or `&#xn;` (base 16) stands for, if it is one XML allows. -/
def charRef (base : Nat) (ds : List Char) : Option Char :=
  if ds = [] then none else
  (ds.foldlM (fun n c => (digitValue c).bind fun d => if d < base then some (n * base + d)
    else none) 0).bind fun n =>
    if (Char.ofNat n).toNat = n ∧ isXmlChar (Char.ofNat n) then some (Char.ofNat n) else none

/-- The character the reference `&r;` stands for. -/
def decodeRef : List Char → Option Char
  | ['a', 'm', 'p'] => some '&'
  | ['l', 't'] => some '<'
  | ['g', 't'] => some '>'
  | ['q', 'u', 'o', 't'] => some '"'
  | ['a', 'p', 'o', 's'] => some '\x27'
  | '#' :: 'x' :: ds => charRef 16 ds
  | '#' :: ds => charRef 10 ds
  | _ => none

/-! ## 2. Tokens -/

/-- What a step read, and the rest of the input; or expat's message. -/
abbrev Step (α : Type) := Except String (α × List Char)

/-- A step mapped over succeeded because the step did. -/
theorem map_eq_ok {α β : Type} {f : α → β} {x : Except String α} {b : β}
    (h : x.map f = .ok b) : ∃ a, x = .ok a ∧ f a = b := by
  cases x with
  | error e => cases h
  | ok a => exact ⟨a, rfl, by simpa [Except.map] using h⟩

/-- A name: a name-start character, then name characters. -/
def name : List Char → Step String
  | c :: cs =>
    if isNameStart c then .ok (⟨c :: cs.takeWhile isNameChar⟩, cs.dropWhile isNameChar)
    else .error "not well-formed (invalid token)"
  | [] => .error "unclosed token"

/-- A reference whose `&` has been read, up to its `;`. -/
def reference (cs : List Char) : Step Char :=
  match cs.dropWhile (fun c => isNameChar c || c == '#') with
  | ';' :: rest =>
    match decodeRef (cs.takeWhile fun c => isNameChar c || c == '#') with
    | some c => .ok (c, rest)
    | none => .error "undefined entity"
  | _ => .error "not well-formed (invalid token)"

/-- **An attribute value** quoted by `q`, its opening quote read, up to its closing quote:
references decoded, a tab or a newline read as a space; `<`, a bad reference or a character
XML does not allow is an error.  `ref` holds a reference read so far. -/
def attValue (q : Char) : List Char → Option (List Char) → Step (List Char)
  | [], _ => .error "unclosed token"
  | c :: cs, none =>
    if c = q then .ok ([], cs)
    else if c = '<' then .error "not well-formed (invalid token)"
    else if c = '&' then attValue q cs (some [])
    else if !isXmlChar c then .error "not well-formed (invalid token)"
    else (attValue q cs none).map fun (v, rest) => ((if isSpace c then ' ' else c) :: v, rest)
  | c :: cs, some r =>
    if c = ';' then
      match decodeRef r with
      | some d => (attValue q cs none).map fun (v, rest) => (d :: v, rest)
      | none => .error "undefined entity"
    else if isNameChar c || c == '#' then attValue q cs (some (r ++ [c]))
    else .error "not well-formed (invalid token)"

/-- The attributes of a start tag whose name has been read, up to its `>` (`false`) or `/>`
(`true`).  An attribute needs white space before it, a name, `=` and a quoted value, and may
not repeat a name. -/
def attributes : Nat → List (String × String) → List Char → Step (List (String × String) × Bool)
  | 0, _, _ => .error "unclosed token"
  | fuel + 1, attrs, cs =>
    match cs.dropWhile isSpace with
    | '>' :: rest => .ok ((attrs, false), rest)
    | '/' :: '>' :: rest => .ok ((attrs, true), rest)
    | [] => .error "unclosed token"
    | rest =>
      if !(cs.head?.any isSpace) then .error "not well-formed (invalid token)" else
      match name rest with
      | .error e => .error e
      | .ok (n, rest) =>
        match rest.dropWhile isSpace with
        | '=' :: rest =>
          match rest.dropWhile isSpace with
          | q :: rest =>
            if q = '"' ∨ q = '\x27' then
              match attValue q rest none with
              | .error e => .error e
              | .ok (v, rest) =>
                if attrs.any (·.1 == n) then .error "duplicate attribute"
                else attributes fuel (attrs ++ [(n, ⟨v⟩)]) rest
            else .error "not well-formed (invalid token)"
          | [] => .error "unclosed token"
        | _ => .error "not well-formed (invalid token)"

/-- The rest of a comment, after its `-->`; `--` inside a comment is not well-formed. -/
def skipComment : List Char → Except String (List Char)
  | '-' :: '-' :: '>' :: rest => .ok rest
  | '-' :: '-' :: _ => .error "not well-formed (invalid token)"
  | c :: rest => if isXmlChar c then skipComment rest else .error "not well-formed (invalid token)"
  | [] => .error "unclosed token"

/-- The rest of a processing instruction whose target has been read, after its `?>`. -/
def skipPI : List Char → Except String (List Char)
  | '?' :: '>' :: rest => .ok rest
  | c :: rest => if isXmlChar c then skipPI rest else .error "not well-formed (invalid token)"
  | [] => .error "unclosed token"

/-- The text of a CDATA section, up to its `]]>`. -/
def cdata : List Char → Step (List Char)
  | ']' :: ']' :: '>' :: rest => .ok ([], rest)
  | c :: rest =>
    if isXmlChar c then (cdata rest).map fun (t, rest) => (c :: t, rest)
    else .error "not well-formed (invalid token)"
  | [] => .error "unclosed token"

/-! ## 3. Elements and documents -/

/-- Character data joins the element's text while no child has been read; after a child it is
that child's tail. -/
def addText (text : Option (List Char)) (children : List Element) (t : List Char) :
    Option (List Char) :=
  if children.isEmpty then some (text.getD [] ++ t) else text

/-- **An element** whose `<` has been read: its start tag, then its content and end tag as
`content` reads them. -/
def elementWith (content : String → Option (List Char) → List Element → List Char →
    Step (Option (List Char) × List Element)) (cs : List Char) : Step Element :=
  match name cs with
  | .error e => .error e
  | .ok (tag, rest) =>
    match attributes (rest.length + 1) [] rest with
    | .error e => .error e
    | .ok ((attrs, true), rest) => .ok (⟨tag, attrs, none, []⟩, rest)
    | .ok ((attrs, false), rest) =>
      match content tag none [] rest with
      | .error e => .error e
      | .ok ((text, children), rest) => .ok (⟨tag, attrs, text.map String.mk, children⟩, rest)

/-- What a `<` in content opens. -/
inductive Opening where
  | endTag (rest : List Char)
  | comment (rest : List Char)
  | cdataSection (rest : List Char)
  | pi (rest : List Char)
  | child (rest : List Char)

/-- The markup that follows a `<` in content: `</`, `<!--`, `<![CDATA[`, `<?`, or else a child
element. -/
def opening : List Char → Opening
  | '/' :: rest => .endTag rest
  | '?' :: rest => .pi rest
  | '!' :: rest =>
    if rest.take 2 = ['-', '-'] then .comment (rest.drop 2)
    else if rest.take 7 = ['[', 'C', 'D', 'A', 'T', 'A', '['] then .cdataSection (rest.drop 7)
    else .child ('!' :: rest)
  | rest => .child rest

/-- The content of the element `tag`, up to and including its end tag.  `text` and `children`
are what has been read of it so far. -/
def content : Nat → String → Option (List Char) → List Element → List Char →
    Step (Option (List Char) × List Element)
  | 0, _, _, _, _ => .error "unclosed token"
  | _ + 1, _, _, _, [] => .error "no element found"
  | fuel + 1, tag, text, children, c :: rest =>
    if c = '<' then
      match opening rest with
      | .endTag rest =>
        match name rest with
        | .error e => .error e
        | .ok (n, rest) =>
          match rest.dropWhile isSpace with
          | '>' :: rest => if n = tag then .ok ((text, children), rest) else .error "mismatched tag"
          | _ => .error "not well-formed (invalid token)"
      | .comment rest =>
        match skipComment rest with
        | .error e => .error e
        | .ok rest => content fuel tag text children rest
      | .cdataSection rest =>
        match cdata rest with
        | .error e => .error e
        | .ok (t, rest) => content fuel tag (addText text children t) children rest
      | .pi rest =>
        match name rest with
        | .error e => .error e
        | .ok (_, rest) =>
          match skipPI rest with
          | .error e => .error e
          | .ok rest => content fuel tag text children rest
      | .child rest =>
        match elementWith (content fuel) rest with
        | .error e => .error e
        | .ok (child, rest) => content fuel tag text (children ++ [child]) rest
    else if c = '&' then
      match reference rest with
      | .error e => .error e
      | .ok (c, rest) => content fuel tag (addText text children [c]) children rest
    else if c = ']' ∧ rest.take 2 = [']', '>'] then .error "not well-formed (invalid token)"
    else if isXmlChar c then content fuel tag (addText text children [c]) children rest
    else .error "not well-formed (invalid token)"

/-- An element whose `<` has been read, within the fuel bound. -/
def element : Nat → List Char → Step Element
  | 0, _ => .error "unclosed token"
  | fuel + 1, cs => elementWith (content fuel) cs

/-- White space, comments and processing instructions before or after the root element. -/
def misc : Nat → List Char → Except String (List Char)
  | 0, cs => .ok cs
  | fuel + 1, cs =>
    match cs.dropWhile isSpace with
    | '<' :: '!' :: '-' :: '-' :: rest =>
      match skipComment rest with
      | .error e => .error e
      | .ok rest => misc fuel rest
    | '<' :: '?' :: rest =>
      match name rest with
      | .error e => .error e
      | .ok (_, rest) =>
        match skipPI rest with
        | .error e => .error e
        | .ok rest => misc fuel rest
    | rest => .ok rest

/-- **Parsing a document**: its root element, when the text is well-formed markup, and
otherwise the parser's error. -/
def parse (s : String) : Except PyError Element :=
  let cs := normalizeNewlines s.toList
  match misc cs.length cs with
  | .ok ('<' :: rest) =>
    match element rest.length rest with
    | .ok (root, rest) =>
      match misc rest.length rest with
      | .ok [] => .ok root
      | .ok _ => .error (.parseError "junk after document element")
      | .error e => .error (.parseError e)
    | .error e => .error (.parseError e)
  | .ok [] => .error (.parseError "no element found")
  | .ok _ => .error (.parseError "syntax error")
  | .error e => .error (.parseError e)

/-- Names follow XML's tables, not the code point alone: `×` (`#xD7`) lies between two ranges of
`NameStartChar`, `é` (`#xE9`) inside one. -/
example : parse "<×/>" = .error (.parseError "not well-formed (invalid token)") ∧
    parse "<é/>" = .ok ⟨"é", [], none, []⟩ := ⟨rfl, rfl⟩

/-! ## 4. The bare-bones document `<domain type='t'></domain>` -/

/-- The characters that stand for themselves in an attribute value quoted by `q`: those XML
allows, other than the quote, `<`, `&` and the white space that normalisation turns into a
space. -/
def safeIn (q c : Char) : Bool :=
  isXmlChar c && c != q && c != '<' && c != '&' && c != '\t' && c != '\n' && c != '\r'

theorem normalizeNewlines_of_no_cr : ∀ l : List Char, '\r' ∉ l → normalizeNewlines l = l
  | [], _ => rfl
  | c :: l, h => by
    have hc : c ≠ '\r' := fun e => h (e ▸ List.mem_cons_self _ _)
    have ih := normalizeNewlines_of_no_cr l (fun hl => h (List.mem_cons_of_mem _ hl))
    simp [normalizeNewlines, hc, ih]

/-- Attribute-value normalisation keeps every character but the white space it turns into a
space. -/
theorem ite_isSpace_self {c : Char} (htab : c ≠ '\t') (hnl : c ≠ '\n') (hcr : c ≠ '\r') :
    (if isSpace c = true then ' ' else c) = c := by
  by_cases hsp : c = ' ' <;> simp [isSpace, *]

/-- **A value of safe characters reads back as itself**, and the scan stops right after its
closing quote. -/
theorem attValue_of_safe (q : Char) : ∀ (t rest : List Char), (∀ c ∈ t, safeIn q c = true) →
    attValue q (t ++ q :: rest) none = .ok (t, rest)
  | [], rest, _ => by simp [attValue]
  | c :: t, rest, h => by
    have hc := h c (List.mem_cons_self _ _)
    simp only [safeIn, Bool.and_eq_true, bne_iff_ne, ne_eq] at hc
    obtain ⟨⟨⟨⟨⟨⟨hx, hq⟩, hlt⟩, hamp⟩, htab⟩, hnl⟩, hcr⟩ := hc
    simp [attValue, hq, hlt, hamp, hx, ite_isSpace_self htab hnl hcr, Except.map,
      attValue_of_safe q t rest (fun c hc => h c (List.mem_cons_of_mem _ hc))]

theorem attributes_type (fuel : Nat) {t : List Char} (ht : ∀ c ∈ t, safeIn '\x27' c = true)
    (rest : List Char) :
    attributes (fuel + 2) [] (' ' :: 't' :: 'y' :: 'p' :: 'e' :: '=' :: '\x27' ::
      (t ++ '\x27' :: '>' :: rest)) = .ok (([("type", ⟨t⟩)], false), rest) := by
  have step : ∀ l, attributes (fuel + 2) [] (' ' :: 't' :: 'y' :: 'p' :: 'e' :: '=' :: '\x27' :: l) =
      match attValue '\x27' l none with
      | .error e => .error e
      | .ok (v, rest) => attributes (fuel + 1) [("type", ⟨v⟩)] rest := fun l => rfl
  rw [step, attValue_of_safe _ _ _ ht]
  rfl

theorem element_domain {n : Nat} (hn : 2 ≤ n) {t : List Char}
    (ht : ∀ c ∈ t, safeIn '\x27' c = true) (rest : List Char) :
    element n ('d' :: 'o' :: 'm' :: 'a' :: 'i' :: 'n' :: ' ' :: 't' :: 'y' :: 'p' :: 'e' ::
      '=' :: '\x27' :: (t ++ '\x27' :: '>' :: '<' :: '/' :: 'd' :: 'o' :: 'm' :: 'a' :: 'i' ::
        'n' :: '>' :: rest)) =
      .ok (⟨"domain", [("type", ⟨t⟩)], none, []⟩, rest) := by
  obtain ⟨fuel, rfl⟩ : ∃ fuel, n = fuel + 2 := ⟨n - 2, by omega⟩
  have step : ∀ r, element (fuel + 2) ('d' :: 'o' :: 'm' :: 'a' :: 'i' :: 'n' :: ' ' :: r) =
      match attributes (r.length + 2) [] (' ' :: r) with
      | .error e => .error e
      | .ok ((attrs, true), rest) => .ok (⟨"domain", attrs, none, []⟩, rest)
      | .ok ((attrs, false), rest) =>
        match content (fuel + 1) "domain" none [] rest with
        | .error e => .error e
        | .ok ((text, children), rest) =>
          .ok (⟨"domain", attrs, text.map String.mk, children⟩, rest) := fun r => rfl
  rw [step, attributes_type _ ht]
  rfl

theorem misc_elem (fuel : Nat) {c : Char} (hc : c ≠ '!' ∧ c ≠ '?') (rest : List Char) :
    misc (fuel + 1) ('<' :: c :: rest) = .ok ('<' :: c :: rest) := by
  simp [misc, isSpace, hc.1, hc.2]

/-- **`<domain type='t'></domain>` parses to the root `domain` with `type = t`**, for every `t`
of safe characters. -/
theorem parse_domain {t : String} (ht : ∀ c ∈ t.toList, safeIn '\x27' c = true) :
    parse ("<domain type='" ++ t ++ "'></domain>") = .ok ⟨"domain", [("type", t)], none, []⟩ := by
  obtain ⟨l⟩ := t
  have hcs : ("<domain type='" ++ ⟨l⟩ ++ "'></domain>").toList = '<' :: 'd' :: 'o' :: 'm' :: 'a' ::
      'i' :: 'n' :: ' ' :: 't' :: 'y' :: 'p' :: 'e' :: '=' :: '\x27' :: (l ++ '\x27' :: '>' ::
        '<' :: '/' :: 'd' :: 'o' :: 'm' :: 'a' :: 'i' :: 'n' :: '>' :: []) := rfl
  have hl : '\r' ∉ l := fun h => by simpa [safeIn] using ht _ h
  unfold parse
  rw [normalizeNewlines_of_no_cr _ (by rw [hcs]; simp [hl]), hcs]
  simp only [List.length_cons, misc_elem _ (c := 'd') (by decide)]
  rw [element_domain (t := l) (by omega) ht]
  rfl

end Markup

end LibvirtXml
