/-
# The property accessors of `VMXMLBase` and `VMCPUXML`

`VMXMLBase.__init__` declares its properties by building accessor objects:

    accessors.XMLAttribute(property_name="hypervisor_type", ..., parent_xpath='/',
                           tag_name='domain', attribute='type')
    accessors.XMLElementText(property_name="vm_name", ..., parent_xpath='/', tag_name='name')

and so on.  The module that defines them (`libvirt_xml/accessors.py`) is not among the sources,
so their behaviour is modelled from the spec (§4.2 and the design note of §9): a property is a
small record `{property name, forbidden operations, parent path, tag name}` read by ONE generic
get/set/del, and each property of the source is that record applied to its own values.

* `get` finds the element under the parent and reads its text (or one attribute); an absent
  element is a `NotFoundError`.
* `set` finds the element, creating it and any missing parent on the way, and writes the text
  (or the attribute).  An integer property writes `str(value)`.
* `del` removes the element; there is nothing to remove when it is absent.
* an operation the descriptor lists in `forbidden` fails with `OperationForbiddenError`.

`hypervisor_type` sits at `parent_xpath='/'` with `tag_name='domain'`: the root element itself.
The properties of `VMXMLBase` hang off the root (§2); `model` and `vendor` of `VMCPUXML` hang
off `/cpu`, where `set` may have to create the `cpu` element first (§3).  Each property reads
back what was set (`vmXmlBase_set_get`, `vmCpuXml_set_get`), and a root property's `set` and
`del` edit only the first child with its tag, so they leave what every other property reads as
it was (`vmXmlBase_independent`).
-/
import LibvirtXml.ElementTree

namespace LibvirtXml

/-! ## 1. Descriptors -/

/-- A property descriptor, as `XMLElementText`, `XMLElementInt` and `XMLAttribute` take it. -/
structure Descriptor where
  propertyName : String
  forbidden : List String
  parentXpath : String
  tagName : String
deriving Repr, DecidableEq

/-- `XMLAttribute`: a descriptor that reads one attribute instead of the text (the source's
`attribute` argument; the word is taken in Lean). -/
structure AttributeDescriptor extends Descriptor where
  attributeName : String
deriving Repr, DecidableEq

/-- The tags of a parent path: `'/'` is the root, `'/cpu'` its `cpu` child. -/
def xpathSteps (xpath : String) : List String :=
  ((xpath.toList.splitOn '/').filter (· ≠ [])).map String.mk

namespace Element

/-- Follow child steps from the element at address `p`, taking the first match each time. -/
def walk (d : Element) (p : Path) : List String → Option Path
  | [] => some p
  | t :: ts => (d.findAt p t).bind (d.walk · ts)

/-- The child of the element at `p` with tag `t`, appended when there is none. -/
def ensureChild (d : Element) (p : Path) (t : String) : Element × Path :=
  match d.findAt p t with
  | some q => (d, q)
  | none => ((d.modifyAt p (·.subElement t [])),
      p ++ [((d.getAt? p).map (·.children.length)).getD 0])

/-- Follow child steps from `p`, creating every missing element on the way. -/
def ensurePath (d : Element) (p : Path) : List String → Element × Path
  | [] => (d, p)
  | t :: ts => let (d', q) := d.ensureChild p t; d'.ensurePath q ts

end Element

namespace Descriptor

variable (desc : Descriptor)

/-- Refuse an operation that the descriptor forbids. -/
def check (op : String) : Except PyError Unit :=
  if op ∈ desc.forbidden then .error (.forbiddenError desc.propertyName op) else .ok ()

/-- Where the property's element is: the root itself when the parent is the root and carries
the tag, otherwise the first child with the tag under the parent. -/
def locate (d : Element) : Option Path :=
  if xpathSteps desc.parentXpath = [] ∧ d.tag = desc.tagName then some []
  else (d.walk [] (xpathSteps desc.parentXpath)).bind (d.findAt · desc.tagName)

/-- `locate`, creating the parent path and the element when they are missing. -/
def locateOrCreate (d : Element) : Element × Path :=
  match desc.locate d with
  | some p => (d, p)
  | none =>
    let (d', p) := d.ensurePath [] (xpathSteps desc.parentXpath)
    d'.ensureChild p desc.tagName

/-- The getter of an `XMLElementText`: the element's text, which may be `None`. -/
def getText (d : Element) : Except PyError (Option String) := do
  desc.check "get"
  match desc.locate d >>= d.getAt? with
  | some x => pure x.text
  | none => throw (.notFoundError desc.propertyName)

/-- The setter of an `XMLElementText`. -/
def setText (d : Element) (value : String) : Except PyError Element := do
  desc.check "set"
  let (d', p) := desc.locateOrCreate d
  pure (d'.modifyAt p fun x => { x with text := some value })

/-- The setter of an `XMLElementInt`: `str(value)`. -/
def setInt (d : Element) (value : Int) : Except PyError Element := desc.setText d (toString value)

/-- The deleter of an `XMLElementText` or `XMLElementInt`: remove the element. -/
def del (d : Element) : Except PyError Element := do
  desc.check "del"
  match desc.locate d with
  | some p => match p.getLast? with
    | some i => pure (d.modifyAt p.dropLast (·.removeChild i))
    | none => pure d
  | none => pure d

end Descriptor

/-- The getter of an `XMLAttribute`: the attribute's value on the element. -/
def AttributeDescriptor.get (desc : AttributeDescriptor) (d : Element) :
    Except PyError (Option String) := do
  desc.check "get"
  match desc.locate d >>= d.getAt? with
  | some x => pure (x.get desc.attributeName)
  | none => throw (.notFoundError desc.propertyName)

/-! ## 2. Properties that hang off the root

Every property of `VMXMLBase` has `parent_xpath='/'`.  There the three operations are local
edits of the root's first child with the property's tag. -/

namespace Element

/-- Set the text of the first child with tag `t`, appending such a child when there is none. -/
def setChildText (e : Element) (t v : String) : Element :=
  match e.find t with
  | some i => e.modifyChild i fun x => { x with text := some v }
  | none => (e.subElement t []).modifyChild e.children.length fun x => { x with text := some v }

/-- Apply `f` to the first child with tag `t`, appending an empty such child first when there is
none: the edit a setter makes to the parent of its element. -/
def setChildWith (e : Element) (t : String) (f : Element → Element) : Element :=
  match e.find t with
  | some i => e.modifyChild i f
  | none => (e.subElement t []).modifyChild e.children.length f

/-- Remove the first child with tag `t`, if there is one. -/
def removeFirst (e : Element) (t : String) : Element :=
  match e.find t with
  | some i => e.removeChild i
  | none => e

/-- Apply `f` to the first child with tag `t`, if there is one. -/
def modifyFirst (e : Element) (t : String) (f : Element → Element) : Element :=
  match e.find t with
  | some i => e.modifyChild i f
  | none => e

section First

variable {e : Element} {t : String} {f : Element → Element}

@[simp] theorem tag_modifyFirst : (e.modifyFirst t f).tag = e.tag := by
  unfold modifyFirst; split <;> rfl

@[simp] theorem tag_removeFirst : (e.removeFirst t).tag = e.tag := by
  unfold removeFirst; split <;> rfl

@[simp] theorem get_modifyFirst (k : String) : (e.modifyFirst t f).get k = e.get k := by
  unfold modifyFirst; split <;> rfl

@[simp] theorem get_removeFirst (k : String) : (e.removeFirst t).get k = e.get k := by
  unfold removeFirst; split <;> rfl

/-- An edit that fixes the first `t` child changes nothing. -/
theorem modifyFirst_eq_self (h : ∀ x, e.children.find? (·.tag == t) = some x → f x = x) :
    e.modifyFirst t f = e := by
  unfold modifyFirst
  cases hi : e.find t with
  | none => rfl
  | some i =>
    obtain ⟨c, hc, -⟩ := child?_of_find hi
    exact modifyChild_eq_self hc (h c (by rw [← bind_child?_find, hi]; exact hc))

theorem find?_modifyFirst_self (hf : ∀ x, (f x).tag = x.tag) :
    (e.modifyFirst t f).children.find? (·.tag == t) = (e.children.find? (·.tag == t)).map f := by
  rw [← bind_child?_find, ← bind_child?_find]
  unfold modifyFirst
  cases h : e.find t with
  | none => simp [h]
  | some i => simp [h, find_modifyChild _ _ hf, child?_modifyChild_self]

/-- Editing the first `t` child, keeping its tag, leaves the children with another tag alone. -/
theorem filter_modifyFirst_of_ne {t' : String} (ht : t ≠ t') (hf : ∀ x, (f x).tag = x.tag) :
    (e.modifyFirst t f).children.filter (·.tag == t') = e.children.filter (·.tag == t') := by
  unfold modifyFirst
  cases h : e.find t with
  | none => rfl
  | some i =>
    obtain ⟨c, hc, hct⟩ := child?_of_find h
    exact filter_modify_of_not (·.tag == t') f e.children hc (by simp [hct, ht])
      (by simp [hf, hct, ht])

/-- Removing the first `t` child drops the first of the `t` children. -/
theorem filter_removeFirst : (e.removeFirst t).children.filter (·.tag == t) =
    (e.children.filter (·.tag == t)).tail := by
  unfold removeFirst
  cases h : e.find t with
  | none =>
    have hnil : e.children.filter (·.tag == t) = [] := by
      rw [List.filter_eq_nil_iff]; simpa using (find_eq_none e t).mp h
    simp [hnil]
  | some i =>
    have hi : (positions (·.tag == t) e.children)[0]? = some i := by
      simpa [find, findall, List.head?_eq_getElem?] using h
    simp [removeChild, filter_eraseIdx_positions _ _ hi, List.eraseIdx_zero]

theorem filter_removeFirst_of_ne {t' : String} (ht : t ≠ t') :
    (e.removeFirst t).children.filter (·.tag == t') = e.children.filter (·.tag == t') := by
  unfold removeFirst
  cases h : e.find t with
  | none => rfl
  | some i =>
    obtain ⟨c, hc, hct⟩ := child?_of_find h
    exact filter_eraseIdx_of_not (·.tag == t') e.children hc (by simp [hct, ht])

end First

@[simp] theorem tag_setChildText (e : Element) (t v : String) :
    (e.setChildText t v).tag = e.tag := by
  unfold setChildText; split <;> rfl

theorem setChildText_eq_setChildWith (e : Element) (t v : String) :
    e.setChildText t v = e.setChildWith t fun x => { x with text := some v } := rfl

/-- After `setChildWith t f` the first `t` child is `f` of the old one, or of a new empty one. -/
theorem child_setChildWith (e : Element) (t : String) {f : Element → Element}
    (hf : ∀ x, (f x).tag = x.tag) :
    ((e.setChildWith t f).find t).bind (e.setChildWith t f).child? =
      some (f (((e.find t).bind e.child?).getD ⟨t, [], none, []⟩)) := by
  cases hfind : e.find t with
  | some i =>
    obtain ⟨c, hc, -⟩ := child?_of_find hfind
    simp [setChildWith, hfind, find_modifyChild _ _ hf, child?_modifyChild_self, hc]
  | none =>
    simp [setChildWith, hfind, find_modifyChild _ _ hf, find_subElement_self hfind,
      child?_modifyChild_self, child?_subElement_length]

/-- The first `t` child after `setChildText t v` carries the text `v`. -/
theorem text_setChildText (e : Element) (t v : String) :
    ∃ x, ((e.setChildText t v).find t).bind (e.setChildText t v).child? = some x ∧
      x.text = some v :=
  ⟨_, child_setChildWith e t (f := fun x => { x with text := some v }) fun _ => rfl, rfl⟩

/-- **A setter's edit, made twice, is made once**, when the edit keeps the tag and made twice
is made once. -/
theorem setChildWith_setChildWith (e : Element) (t : String) {f : Element → Element}
    (htag : ∀ x, (f x).tag = x.tag) (hf : ∀ x, f (f x) = f x) :
    (e.setChildWith t f).setChildWith t f = e.setChildWith t f := by
  cases h : e.find t with
  | some i =>
    simp only [setChildWith, h, find_modifyChild _ _ htag, modifyChild_modifyChild,
      Function.comp_def, hf]
  | none =>
    simp only [setChildWith, h, find_modifyChild _ _ htag, find_subElement_self h,
      modifyChild_modifyChild, Function.comp_def, hf]

/-- Setting the text the first `t` child already has changes nothing. -/
theorem setChildText_eq_self {e x : Element} {t v : String}
    (hx : e.children.find? (·.tag == t) = some x) (hv : x.text = some v) :
    e.setChildText t v = e := by
  rw [← bind_child?_find] at hx
  cases h : e.find t with
  | none => rw [h] at hx; cases hx
  | some i =>
    rw [h] at hx
    simp only [setChildText, h]
    obtain ⟨tag, attrib, text, children⟩ := x
    exact modifyChild_eq_self hx (by simp_all)

@[simp] theorem tag_setChildWith (e : Element) (t : String) (f : Element → Element) :
    (e.setChildWith t f).tag = e.tag := by
  unfold setChildWith; split <;> rfl

@[simp] theorem get_setChildWith (e : Element) (t : String) (f : Element → Element) (k : String) :
    (e.setChildWith t f).get k = e.get k := by
  unfold setChildWith; split <;> rfl

/-- A setter's edit of the first `t` child, keeping its tag, leaves the children with another
tag alone, also when it appends the child. -/
theorem filter_setChildWith_of_ne {e : Element} {t t' : String} {f : Element → Element}
    (ht : t ≠ t') (hf : ∀ x, (f x).tag = x.tag) :
    (e.setChildWith t f).children.filter (·.tag == t') = e.children.filter (·.tag == t') := by
  unfold setChildWith
  cases h : e.find t with
  | none => simp [subElement_modifyChild_length, hf, ht]
  | some i =>
    obtain ⟨c, hc, hct⟩ := child?_of_find h
    exact filter_modify_of_not (·.tag == t') f e.children hc (by simp [hct, ht])
      (by simp [hf, hct, ht])

theorem find?_setChildWith_of_ne {e : Element} {t t' : String} {f : Element → Element}
    (ht : t ≠ t') (hf : ∀ x, (f x).tag = x.tag) :
    (e.setChildWith t f).children.find? (·.tag == t') = e.children.find? (·.tag == t') := by
  rw [← List.filter_head?, ← List.filter_head?, filter_setChildWith_of_ne ht hf]

/-- The same edit keeps where the children with another tag are. -/
theorem findall_setChildWith_of_ne {e : Element} {t t' : String} {f : Element → Element}
    (ht : t ≠ t') (hf : ∀ x, (f x).tag = x.tag) :
    (e.setChildWith t f).findall t' = e.findall t' := by
  unfold setChildWith
  cases e.find t with
  | none => simp [findall, subElement_modifyChild_length, positions_append_singleton, hf, ht]
  | some i => exact positions_modify (·.tag == t') f e.children i fun a _ => by simp [hf]

/-- The same edit keeps each child with another tag. -/
theorem child?_setChildWith_of_mem {e : Element} {t t' : String} {f : Element → Element}
    (ht : t ≠ t') {j : Nat} (hj : j ∈ e.findall t') :
    (e.setChildWith t f).child? j = e.child? j := by
  obtain ⟨a, ha, haj⟩ := exists_of_mem_positions (fun x : Element => x.tag == t') hj
  unfold setChildWith
  cases hi : e.find t with
  | none =>
    rw [subElement_modifyChild_length]
    exact List.getElem?_append_left (List.getElem?_eq_some_iff.mp haj).1
  | some i =>
    obtain ⟨c, hc, hct⟩ := child?_of_find hi
    refine child?_modifyChild_ne e f fun hij => ?_
    subst hij
    have hca : c = a := Option.some.inj (hc.symm.trans haj)
    subst hca
    exact ht (hct.symm.trans (by simpa using (List.mem_filter.mp ha).2))

end Element

theorem xpathSteps_root : xpathSteps "/" = [] := by decide

namespace Descriptor

variable {desc : Descriptor} {d : Element}

theorem locate_of_root (hp : xpathSteps desc.parentXpath = []) (ht : d.tag ≠ desc.tagName) :
    desc.locate d = (d.find desc.tagName).map ([·]) := by
  simp [locate, hp, ht, Element.walk, Element.findAt, Option.map_eq_map]

theorem getText_of_root (hp : xpathSteps desc.parentXpath = []) (ht : d.tag ≠ desc.tagName)
    (hg : "get" ∉ desc.forbidden) :
    desc.getText d = match (d.find desc.tagName).bind d.child? with
      | some x => .ok x.text
      | none => .error (.notFoundError desc.propertyName) := by
  simp only [getText, check, hg, if_false, locate_of_root hp ht]
  cases d.find desc.tagName <;> simp [bind, Except.bind, pure, Except.pure, throw, throwThe,
    MonadExceptOf.throw]

theorem setText_of_root (hp : xpathSteps desc.parentXpath = []) (ht : d.tag ≠ desc.tagName)
    (hs : "set" ∉ desc.forbidden) (v : String) :
    desc.setText d v = .ok (d.setChildText desc.tagName v) := by
  simp only [setText, check, hs, if_false, locateOrCreate, locate_of_root hp ht,
    Element.setChildText]
  cases h : d.find desc.tagName <;>
    simp [bind, Except.bind, pure, Except.pure, hp, Element.ensurePath, Element.ensureChild,
      Element.findAt, h]

theorem getText_setChildText_of_root (hp : xpathSteps desc.parentXpath = [])
    (ht : d.tag ≠ desc.tagName) (hg : "get" ∉ desc.forbidden) (v : String) :
    desc.getText (d.setChildText desc.tagName v) = .ok (some v) := by
  obtain ⟨x, hx, hxt⟩ := Element.text_setChildText d desc.tagName v
  rw [getText_of_root hp (by simpa using ht) hg, hx]
  exact congrArg Except.ok hxt

/-- **Set, then get, reads the value back**, for a property that hangs off the root. -/
theorem getText_setText_of_root (hp : xpathSteps desc.parentXpath = [])
    (ht : d.tag ≠ desc.tagName) (hg : "get" ∉ desc.forbidden) (hs : "set" ∉ desc.forbidden)
    (v : String) : (desc.setText d v >>= desc.getText) = .ok (some v) := by
  rw [setText_of_root hp ht hs]
  exact getText_setChildText_of_root hp ht hg v

theorem del_of_root (hp : xpathSteps desc.parentXpath = []) (ht : d.tag ≠ desc.tagName)
    (hd : "del" ∉ desc.forbidden) : desc.del d = .ok (d.removeFirst desc.tagName) := by
  simp only [del, check, hd, if_false, locate_of_root hp ht, Element.removeFirst]
  cases d.find desc.tagName <;> simp [bind, Except.bind, pure, Except.pure]

/-- The getter of a root property reads only the children with its tag: an edit of the root that
keeps its tag and those children is invisible to it. -/
theorem getText_congr_of_root (hp : xpathSteps desc.parentXpath = []) (ht : d.tag ≠ desc.tagName)
    (hg : "get" ∉ desc.forbidden) {d' : Element} (htag : d'.tag = d.tag)
    (hf : d'.children.filter (·.tag == desc.tagName) = d.children.filter (·.tag == desc.tagName)) :
    desc.getText d' = desc.getText d := by
  rw [getText_of_root hp (htag ▸ ht) hg, getText_of_root hp ht hg, Element.bind_child?_find,
    Element.bind_child?_find, ← List.filter_head?, ← List.filter_head?, hf]

end Descriptor

/-! ## 3. Properties under a child of the root

For `parent_xpath='/cpu'` the getter reads the tag under the first `cpu` child, and the setter
edits that child with `setChildText`, appending an empty `cpu` first when there is none. -/

namespace Descriptor

variable {desc : Descriptor} {d : Element} {t : String}

theorem locate_of_child (hp : xpathSteps desc.parentXpath = [t]) :
    desc.locate d = (d.find t).bind fun c =>
      (d.child? c).bind fun x => (x.find desc.tagName).map ([c, ·]) := by
  simp only [locate, hp, Element.walk, Element.findAt]
  cases h : d.find t <;> simp [h]

theorem getText_of_child (hp : xpathSteps desc.parentXpath = [t]) (hg : "get" ∉ desc.forbidden) :
    desc.getText d =
      match ((d.find t).bind d.child?).bind fun x => (x.find desc.tagName).bind x.child? with
      | some x => .ok x.text
      | none => .error (.notFoundError desc.propertyName) := by
  have hloc : (desc.locate d).bind d.getAt? =
      ((d.find t).bind d.child?).bind fun x => (x.find desc.tagName).bind x.child? := by
    rw [locate_of_child hp]
    cases d.find t with
    | none => rfl
    | some c =>
      cases hx : d.child? c with
      | none => simp [hx]
      | some x => cases hj : x.find desc.tagName <;> simp [hx, hj]
  simp only [getText, check, hg, if_false, Option.bind_eq_bind, hloc]
  cases ((d.find t).bind d.child?).bind fun x => (x.find desc.tagName).bind x.child? <;>
    simp [bind, Except.bind, pure, Except.pure, throw, throwThe, MonadExceptOf.throw]

/-- The setter under `/t`, in the three cases `locateOrCreate` meets: the element is there, only
its parent is, or neither is. -/
theorem setText_of_child (hp : xpathSteps desc.parentXpath = [t]) (hs : "set" ∉ desc.forbidden)
    (v : String) : desc.setText d v = .ok (d.setChildWith t (·.setChildText desc.tagName v)) := by
  simp only [setText, check, hs, if_false, locateOrCreate, locate_of_child hp, hp]
  cases hf : d.find t with
  | none =>
    have hempty : (⟨t, [], none, []⟩ : Element).find desc.tagName = none := rfl
    simp [Element.ensurePath, Element.ensureChild, Element.findAt, hf, Element.setChildWith,
      hempty, Element.child?_subElement_length, Element.modifyChild_modifyChild]
    exact Element.modifyChild_congr (Element.child?_subElement_length d t []) rfl
  | some c =>
    obtain ⟨x, hx, -⟩ := Element.child?_of_find hf
    cases hj : x.find desc.tagName <;>
    · simp [Element.ensurePath, Element.ensureChild, Element.findAt, hf, hx, hj,
        Element.setChildWith, Element.modifyChild_modifyChild]
      exact Element.modifyChild_congr hx (by simp [Element.setChildText, hj])

/-- **Set, then get, reads the value back**, for a property under a child of the root. -/
theorem getText_setText_of_child (hp : xpathSteps desc.parentXpath = [t])
    (hg : "get" ∉ desc.forbidden) (hs : "set" ∉ desc.forbidden) (v : String) :
    (desc.setText d v >>= desc.getText) = .ok (some v) := by
  have hx := Element.child_setChildWith d t (f := (·.setChildText desc.tagName v))
    (fun x => Element.tag_setChildText x _ v)
  obtain ⟨x, hxs, hxt⟩ := Element.text_setChildText
    (((d.find t).bind d.child?).getD ⟨t, [], none, []⟩) desc.tagName v
  rw [setText_of_child hp hs]
  show desc.getText _ = _
  rw [getText_of_child hp hg, hx, Option.some_bind, hxs]
  exact congrArg Except.ok hxt

/-- A forbidden `del` fails before it looks at the document. -/
theorem del_of_forbidden (hd : "del" ∈ desc.forbidden) :
    desc.del d = .error (.forbiddenError desc.propertyName "del") := by
  simp [del, check, hd, bind, Except.bind]

end Descriptor

/-! ## 4. The properties of `VMXMLBase` and `VMCPUXML` -/

/-- `hypervisor_type`: the `type` attribute of the root `domain` element. -/
def hypervisorType : AttributeDescriptor :=
  { propertyName := "hypervisor_type", forbidden := [], parentXpath := "/", tagName := "domain",
    attributeName := "type" }

/-- `vm_name`: the text of the `name` element. -/
def vmName : Descriptor :=
  { propertyName := "vm_name", forbidden := [], parentXpath := "/", tagName := "name" }

/-- `uuid`: the text of the `uuid` element. -/
def uuid : Descriptor :=
  { propertyName := "uuid", forbidden := [], parentXpath := "/", tagName := "uuid" }

/-- `vcpu`: the integer text of the `vcpu` element. -/
def vcpu : Descriptor :=
  { propertyName := "vcpu", forbidden := [], parentXpath := "/", tagName := "vcpu" }

/-- `max_mem`: the integer text of the `memory` element. -/
def maxMem : Descriptor :=
  { propertyName := "max_mem", forbidden := [], parentXpath := "/", tagName := "memory" }

/-- `current_mem`: the integer text of the `currentMemory` element. -/
def currentMem : Descriptor :=
  { propertyName := "current_mem", forbidden := [], parentXpath := "/",
    tagName := "currentMemory" }

/-- `model` of `VMCPUXML`: the text of `cpu/model`; it cannot be deleted. -/
def model : Descriptor :=
  { propertyName := "model", forbidden := ["del"], parentXpath := "/cpu", tagName := "model" }

/-- `vendor` of `VMCPUXML`: the text of `cpu/vendor`; it cannot be deleted. -/
def vendor : Descriptor :=
  { propertyName := "vendor", forbidden := ["del"], parentXpath := "/cpu", tagName := "vendor" }

/-- **The properties of `VMXMLBase` read back what was set**: on a `domain` document, setting
`vm_name` or `uuid` to `s` and reading it gives `s`, and setting `vcpu`, `max_mem` or
`current_mem` to `v` leaves the text `str(v)` for the getter to read. -/
theorem vmXmlBase_set_get {d : Element} (hd : d.tag = "domain") (s : String) (v : Int) :
    (∀ desc ∈ [vmName, uuid], (desc.setText d s >>= desc.getText) = .ok (some s)) ∧
      ∀ desc ∈ [vcpu, maxMem, currentMem],
        (desc.setInt d v >>= desc.getText) = .ok (some (toString v)) := by
  constructor <;> intro desc hdesc <;>
    simp only [List.mem_cons, List.mem_singleton, List.not_mem_nil, or_false] at hdesc <;>
    rcases hdesc with rfl | rfl | rfl <;>
    exact Descriptor.getText_setText_of_root xpathSteps_root
      (by simp [hd, vmName, uuid, vcpu, maxMem, currentMem]) (by decide) (by decide) _

theorem vmXmlBase_set_get_domain :
    (⟨"domain", [], none, []⟩ : Element).tag = "domain" ∧
      (vcpu.setInt ⟨"domain", [], none, []⟩ 2 >>= vcpu.getText) = .ok (some "2") :=
  ⟨rfl, (vmXmlBase_set_get (d := ⟨"domain", [], none, []⟩) rfl "" 2).2 vcpu (by simp)⟩

theorem hypervisorType_get {d : Element} (hd : d.tag = "domain") :
    hypervisorType.get d = .ok (d.get "type") := by
  simp [AttributeDescriptor.get, hypervisorType, Descriptor.check, Descriptor.locate,
    xpathSteps_root, hd, bind, Except.bind, pure, Except.pure]

/-- What an edit of a `domain` root, keeping its tag, its attributes and the children with every
tag but `t`, leaves to the other properties' getters. -/
theorem vmXmlBase_get_of_edit {d d' : Element} (hd : d.tag = "domain") {t : String}
    (htag : d'.tag = d.tag) (hget : ∀ k, d'.get k = d.get k)
    (hf : ∀ t', t ≠ t' → d'.children.filter (·.tag == t') = d.children.filter (·.tag == t')) :
    hypervisorType.get d' = hypervisorType.get d ∧
      ∀ q ∈ [vmName, uuid, vcpu, maxMem, currentMem], q.tagName ≠ t →
        q.getText d' = q.getText d := by
  refine ⟨by rw [hypervisorType_get (htag.trans hd), hypervisorType_get hd, hget],
    fun q hq hqt => ?_⟩
  have hroot : xpathSteps q.parentXpath = [] ∧ q.tagName ≠ "domain" ∧ "get" ∉ q.forbidden := by
    simp only [List.mem_cons, List.mem_singleton, List.not_mem_nil, or_false] at hq
    rcases hq with rfl | rfl | rfl | rfl | rfl <;> decide
  exact Descriptor.getText_congr_of_root hroot.1 (by rw [hd]; exact hroot.2.1.symm) hroot.2.2 htag
    (hf _ (Ne.symm hqt))

/-- **The properties of `VMXMLBase` do not interfere**: on a `domain` document, setting one of
`vm_name`, `uuid`, `vcpu`, `max_mem` and `current_mem`, or deleting it, leaves what each of the
others reads, and what `hypervisor_type` reads, as it was. -/
theorem vmXmlBase_independent {d : Element} (hd : d.tag = "domain") :
    ∀ p ∈ [vmName, uuid, vcpu, maxMem, currentMem], ∀ (s : String) (r : Except PyError Element),
      (r = p.setText d s ∨ r = p.del d) →
        (r >>= hypervisorType.get) = hypervisorType.get d ∧
          ∀ q ∈ [vmName, uuid, vcpu, maxMem, currentMem], q ≠ p →
            (r >>= q.getText) = q.getText d := by
  intro p hp s r hr
  have hfacts : xpathSteps p.parentXpath = [] ∧ p.tagName ≠ "domain" ∧ "set" ∉ p.forbidden ∧
      "del" ∉ p.forbidden ∧ ∀ q ∈ [vmName, uuid, vcpu, maxMem, currentMem], q ≠ p →
        q.tagName ≠ p.tagName := by
    simp only [List.mem_cons, List.mem_singleton, List.not_mem_nil, or_false] at hp
    rcases hp with rfl | rfl | rfl | rfl | rfl <;> decide
  obtain ⟨hpx, hpt, hs, hdel, hq⟩ := hfacts
  have hne : d.tag ≠ p.tagName := by rw [hd]; exact hpt.symm
  -- both edits change only the first child with `p`'s tag
  obtain ⟨d', rfl, htag, hget, hf⟩ : ∃ d', r = .ok d' ∧ d'.tag = d.tag ∧
      (∀ k, d'.get k = d.get k) ∧
      ∀ t', p.tagName ≠ t' →
        d'.children.filter (·.tag == t') = d.children.filter (·.tag == t') := by
    rcases hr with rfl | rfl
    · rw [Descriptor.setText_of_root hpx hne hs s, Element.setChildText_eq_setChildWith]
      exact ⟨_, rfl, by simp, by simp,
        fun t' ht' => Element.filter_setChildWith_of_ne ht' fun _ => rfl⟩
    · exact ⟨_, Descriptor.del_of_root hpx hne hdel, by simp, by simp,
        fun t' ht' => Element.filter_removeFirst_of_ne ht'⟩
  obtain ⟨hty, hget'⟩ := vmXmlBase_get_of_edit hd htag hget hf
  exact ⟨hty, fun q hq' hqp => hget' q hq' (hq q hq' hqp)⟩

theorem vmXmlBase_independent_vcpu :
    (⟨"domain", [("type", "kvm")], none, [⟨"name", [], some "vm1", []⟩]⟩ : Element).tag =
      "domain" ∧
    (vcpu.setInt ⟨"domain", [("type", "kvm")], none, [⟨"name", [], some "vm1", []⟩]⟩ 4 >>=
      vmName.getText) = .ok (some "vm1") :=
  ⟨rfl, ((vmXmlBase_independent (d := ⟨"domain", [("type", "kvm")], none,
    [⟨"name", [], some "vm1", []⟩]⟩) rfl vcpu (by simp) (toString (4 : Int)) _ (.inl rfl)).2
    vmName (by simp) (by decide)).trans rfl⟩


/-- **The properties of `VMCPUXML` read back what was set, and cannot be deleted**: on any
document, setting `model` or `vendor` to `s` edits the first `cpu` child (a new one when there is
none) with `setChildText`, the getter then reads `s`, and `del` fails with
`OperationForbiddenError`. -/
theorem vmCpuXml_set_get (d : Element) (s : String) :
    ∀ desc ∈ [model, vendor],
      desc.setText d s = .ok (d.setChildWith "cpu" (·.setChildText desc.tagName s)) ∧
        (desc.setText d s >>= desc.getText) = .ok (some s) ∧
        desc.del d = .error (.forbiddenError desc.propertyName "del") := by
  have hcpu : ∀ desc ∈ [model, vendor], xpathSteps desc.parentXpath = ["cpu"] ∧
      "get" ∉ desc.forbidden ∧ "set" ∉ desc.forbidden ∧ "del" ∈ desc.forbidden := by
    decide
  intro desc hdesc
  obtain ⟨hp, hg, hs, hd⟩ := hcpu desc hdesc
  exact ⟨Descriptor.setText_of_child hp hs s, Descriptor.getText_setText_of_child hp hg hs s,
    Descriptor.del_of_forbidden hd⟩

theorem vmCpuXml_set_get_penryn :
    model ∈ [model, vendor] ∧
      (model.setText ⟨"domain", [], none, []⟩ "Penryn" >>= model.getText) =
        .ok (some "Penryn") :=
  ⟨by simp, (vmCpuXml_set_get ⟨"domain", [], none, []⟩ "Penryn" model (by simp)).2.1⟩

end LibvirtXml
