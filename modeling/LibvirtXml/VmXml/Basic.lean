/-
# The `VMXML` instance and its round trip through the tool

`VMXML(hypervisor_type=t)` formats `t` into the text `<domain type='t'></domain>` raw, with no
escaping.  Parsed back (`Markup.parse`), a plain `t` gives the root `domain` with `type = t`
(`init_hypervisorType`); a quote in `t` gives a text that does not parse, or one with an
attribute of its own (`init_quote`).

A `VMXML` instance holds one document.  `new_from_dumpxml(name)` fills it from the tool,
`undefine()` removes the domain the document names (`remove_domain(self.vm_name)`) and `define()`
hands the document back.  Every convenience setter of the class (`set_vm_vcpus`,
`set_primary_serial`, `set_cpu_mode`) ends with

    vmxml.undefine()
    vmxml.define()

on the edited document, so each is `editDomain` applied to its own edit (`vcpuUpdate` here);
`redefine_run` says once what those two lines do, and the setters' results are read off it
(`setVmVcpus_ok` here).  Unlike `vm_rename`, the setters keep no backup:
when `define` fails after `undefine`, the domain is gone (`redefine_run`, second case).

Which definitions a procedure can change is said once, by a frame judgement: `Touches N Q x`
says that `x`, from any world and whatever the tool answers, changes the store only at the names
in `N`, leaves the VM object alone, and returns only results satisfying `Q`.  It has one rule for
each way a procedure is built (`touches_pure`, `touches_ofExcept`, `touches_bind`) and one for
each call (`touches_dumpxml`, `touches_removeDomain`, `touches_define`, `touches_redefine`);
each operation's frame is assembled from them beside its definition.

`get_numa_params` wraps its reads in two bare `except:` clauses; the net effect is that it
returns both `mode` and `nodeset` of `numatune/memory` or neither (`getNumaParams_eq`).

`xmltreefile.write()` followed by `vmxml.set_xml(xmltreefile.name)` writes the document to its
file and reads it back; the setters here keep the document as it is.  `VmXml/Writable.lean`
models that read-back (`setPrimarySerialReadBack`): it sorts each element's attributes and
changes nothing else when the values written read back, and turns a tab in a value into a space.
-/
import LibvirtXml.Virsh
import LibvirtXml.Markup

namespace LibvirtXml

namespace VMXML

/-! ## 1. A new instance, and the instance's calls -/

/-- `VMXML(hypervisor_type=t)` (the source's default is `'kvm'`): the bare-bones text
`u"<domain type='%s'></domain>" % hypervisor_type`, parsed by the document store. -/
def init (hypervisorType : String) : Except PyError Element :=
  Markup.parse ("<domain type='" ++ hypervisorType ++ "'></domain>")

/-- **The new document reads its type back**, for every `t` of characters that stand for
themselves between quotes: the text is well-formed, its root is `domain` with `type = t`, and
the `hypervisor_type` property reads `t`. -/
theorem init_hypervisorType {t : String} (ht : ∀ c ∈ t.toList, Markup.safeIn '\x27' c = true) :
    init t = .ok ⟨"domain", [("type", t)], none, []⟩ ∧
      hypervisorType.get ⟨"domain", [("type", t)], none, []⟩ = .ok (some t) := by
  refine ⟨Markup.parse_domain ht, ?_⟩
  simp [AttributeDescriptor.get, hypervisorType, Descriptor.check, Descriptor.locate,
    xpathSteps_root, Element.get, List.lookup_cons, bind, Except.bind, pure, Except.pure]

theorem init_hypervisorType_kvm : (∀ c ∈ "kvm".toList, Markup.safeIn '\x27' c = true) ∧
    init "kvm" = .ok ⟨"domain", [("type", "kvm")], none, []⟩ :=
  ⟨by decide, (init_hypervisorType (t := "kvm") (by decide)).1⟩

/-- **A quote in the type is not escaped.**  `VMXML(hypervisor_type="'")` builds
`<domain type='''></domain>`, which is not well-formed; `"kvm' x='1"` builds a well-formed
document with an attribute of its own, whose type reads `kvm`. -/
theorem init_quote :
    init "'" = .error (.parseError "not well-formed (invalid token)") ∧
      init "kvm' x='1" = .ok ⟨"domain", [("type", "kvm"), ("x", "1")], none, []⟩ :=
  ⟨rfl, rfl⟩

/-- `VMXML.new_from_dumpxml(vm_name)`: an instance holding the dumped document. -/
def newFromDumpxml (vmName : String) : PyM Element := Virsh.dumpxml vmName

/-- `VMXML.undefine()`: `remove_domain(self.vm_name)`; Python formats a `None` name as
`"None"`. -/
def undefine (vmxml : Element) : PyM Unit := do
  let name ← ofExcept (LibvirtXml.vmName.getText vmxml)
  Virsh.removeDomain (name.getD "None")

/-- `VMXML.define()`. -/
def define (vmxml : Element) : PyM Unit := Virsh.define vmxml

/-- `vmxml.undefine(); vmxml.define()`, the last two lines of every setter. -/
def redefine (vmxml : Element) : PyM Unit := do
  undefine vmxml
  define vmxml

/-- A definition found in the store is a `domain` document. -/
theorem tag_of_filed {s : Store} {n : String} {D : Element} (hD : s.defs n = some D) :
    D.tag = "domain" :=
  tag_of_domainName (s.filed _ _ hD)

/-- `undefine` removes the domain the document names. -/
theorem undefine_run {D : Element} {n : String} (hn : domainName D = some n) (w : World) :
    undefine D w = Virsh.removeDomain n w := by
  have hD : D.tag = "domain" := tag_of_domainName hn
  have hget : vmName.getText D = .ok (some n) := by
    rw [Descriptor.getText_of_root xpathSteps_root (by rw [hD]; decide) (by simp [vmName])]
    simp only [domainName, hD, if_true, Option.bind_eq_some] at hn
    obtain ⟨x, hx, hxt⟩ := hn
    simp [vmName, Element.bind_child?_find, hx, hxt]
  simp [undefine, bind, EStateM.bind, hget, ofExcept, pure, EStateM.pure]

/-- **Undefine, then define**, for a document named `n`: a failed `undefine` changes nothing, a
failed `define` leaves the domain undefined, and success files the document under `n`. -/
theorem redefine_run {D : Element} {n : String} (hn : domainName D = some n) (w : World) :
    redefine D w =
      let w₁ : World := { w.next (.removeDomain n) with store := w.store.erase n }
      match w.replyAt 0, w.replyAt 1 with
      | .fail d, _ => .error (.cmdError d) (w.next (.removeDomain n))
      | .ok, .fail d => .error (.cmdError d) (w₁.next (.define D))
      | .ok, .ok =>
        .ok () { w₁.next (.define D) with store := (w.store.erase n).put n D hn } := by
  simp only [redefine, bind, EStateM.bind, undefine_run hn, Virsh.removeDomain_run]
  cases h0 : w.replyAt 0
  case fail => rfl
  case ok =>
  simp only [define, Virsh.define_run, World.replyAt_next, World.replyAt_mk, World.next_store,
    Store.define_eq_some hn]
  cases w.replyAt 1 <;> rfl

/-- With both calls answered, `redefine` files the document under its name and changes no other
entry. -/
theorem redefine_ok {D : Element} {n : String} (hn : domainName D = some n) {w : World}
    (h0 : w.replyAt 0 = .ok) (h1 : w.replyAt 1 = .ok) :
    ∃ w', redefine D w = .ok () w' ∧
      ∀ m, w'.store.defs m = if m = n then some D else w.store.defs m := by
  rw [redefine_run hn]
  simp only [h0, h1]
  refine ⟨_, rfl, fun m => ?_⟩
  by_cases hm : m = n <;> simp [hm]

/-! ## 2. What a procedure can change -/

/-- The state a procedure leaves behind, whether it returns or raises. -/
def after {σ α : Type} : EStateM.Result PyError σ α → σ
  | .ok _ s => s
  | .error _ s => s

/-- **`x` changes the store only at the names `N`**, leaves the VM object alone, returns only
results satisfying `Q`, and leaves a reliable tool reliable, from every world. -/
def Touches {α : Type} (N : List String) (Q : α → Prop) (x : PyM α) : Prop :=
  ∀ w, (after (x w)).vm = w.vm ∧
    (∀ m, m ∉ N → (after (x w)).store.defs m = w.store.defs m) ∧
    (∀ a w', x w = .ok a w' → Q a) ∧ (w.Reliable → (after (x w)).Reliable)

section Rules

variable {α β : Type} {N : List String} {Q : α → Prop} {R : β → Prop}

theorem touches_pure {a : α} (h : Q a) : Touches N Q (pure a) :=
  fun _ => ⟨rfl, fun _ _ => rfl, fun _ _ he => by cases he; exact h, id⟩

theorem touches_ofExcept {x : Except PyError α} (h : ∀ a, x = .ok a → Q a) :
    Touches N Q (ofExcept x) := by
  intro w
  cases x with
  | error e => exact ⟨rfl, fun _ _ => rfl, fun _ _ he => (nomatch he), id⟩
  | ok a => exact ⟨rfl, fun _ _ => rfl, fun _ _ he => by cases he; exact h a rfl, id⟩

/-- Sequencing: what `x` returns is all the rest may assume. -/
theorem touches_bind {x : PyM α} {f : α → PyM β} (hx : Touches N Q x)
    (hf : ∀ a, Q a → Touches N R (f a)) : Touches N R (x >>= f) := by
  intro w
  obtain ⟨hxv, hxs, hxq, hxr⟩ := hx w
  cases h : x w with
  | ok a w₁ =>
    obtain ⟨hfv, hfs, hfq, hfr⟩ := hf a (hxq a w₁ h) w₁
    have hrun : (x >>= f) w = f a w₁ := by simp only [bind, EStateM.bind, h]
    rw [h] at hxv hxs hxr
    rw [hrun]
    exact ⟨hfv.trans hxv, fun m hm => (hfs m hm).trans (hxs m hm), hfq, hfr ∘ hxr⟩
  | error e w₁ =>
    have hrun : (x >>= f) w = .error e w₁ := by simp only [bind, EStateM.bind, h]
    rw [h] at hxv hxs hxr
    rw [hrun]
    exact ⟨hxv, hxs, fun _ _ he => (nomatch he), hxr⟩

/-- A dump changes nothing, and what it returns is filed under the name asked for. -/
theorem touches_dumpxml (n : String) :
    Touches N (fun D => domainName D = some n) (Virsh.dumpxml n) := by
  intro w
  rw [Virsh.dumpxml_run]
  cases w.replyAt 0 <;> cases hs : w.store.defs n <;>
    refine ⟨rfl, fun _ _ => rfl, ?_, fun h => h.next _⟩ <;> rintro _ _ ⟨⟩
  exact w.store.filed n _ hs

theorem touches_removeDomain {n : String} (h : n ∈ N) :
    Touches N (fun _ => True) (Virsh.removeDomain n) := by
  intro w
  rw [Virsh.removeDomain_run]
  cases w.replyAt 0 with
  | fail => exact ⟨rfl, fun _ _ => rfl, fun _ _ he => (nomatch he), fun h => h.next _⟩
  | ok =>
    refine ⟨rfl, fun m hm => ?_, fun _ _ _ => trivial, fun h => h.next (.removeDomain n)⟩
    show (w.store.erase n).defs m = _
    rw [Store.erase_defs, if_neg fun (e : m = n) => hm (e ▸ h)]

theorem touches_define {d : Element} (h : ∀ m, domainName d = some m → m ∈ N) :
    Touches N (fun _ => True) (Virsh.define d) := by
  intro w
  rw [Virsh.define_run]
  cases w.replyAt 0 with
  | fail => exact ⟨rfl, fun _ _ => rfl, fun _ _ he => (nomatch he), fun h => h.next _⟩
  | ok =>
    cases hn : domainName d with
    | none =>
      rw [Store.define_eq_none hn]
      exact ⟨rfl, fun _ _ => rfl, fun _ _ he => (nomatch he), fun h => h.next _⟩
    | some n =>
      rw [Store.define_eq_some hn]
      refine ⟨rfl, fun m hm => ?_, fun _ _ _ => trivial, fun h => h.next (.define d)⟩
      show (w.store.put n d hn).defs m = _
      rw [Store.put_defs, if_neg fun (e : m = n) => hm (e ▸ h n hn)]

/-- `undefine(); define()` of a document named `n` touches `n` alone, on every path. -/
theorem touches_redefine {D : Element} {n : String} (hn : domainName D = some n) (h : n ∈ N) :
    Touches N (fun _ => True) (redefine D) := by
  have hu : undefine D = Virsh.removeDomain n := funext (undefine_run hn)
  exact touches_bind (hu ▸ touches_removeDomain h) fun _ _ =>
    touches_define fun m hm => (Option.some.inj (hn.symm.trans hm)) ▸ h

end Rules

/-- The shape the class's setters share: dump the domain, edit the document, then
`vmxml.undefine(); vmxml.define()`. -/
def editDomain (vmName : String) (edit : Element → Except PyError Element) : PyM Unit := do
  let vmxml ← newFromDumpxml vmName
  let vmxml ← ofExcept (edit vmxml)
  redefine vmxml

/-- An edit that, whenever it succeeds on a definition of `n`, returns a definition of `n`. -/
def KeepsName (n : String) (edit : Element → Except PyError Element) : Prop :=
  ∀ D D', domainName D = some n → edit D = .ok D' → domainName D' = some n

/-- **A setter touches the domain it is given and no other**, when its edit keeps the name. -/
theorem touches_editDomain {n : String} {edit : Element → Except PyError Element}
    (hedit : KeepsName n edit) : Touches [n] (fun _ => True) (editDomain n edit) :=
  touches_bind (touches_dumpxml n) fun _ hD =>
    touches_bind (touches_ofExcept fun _ h => hedit _ _ hD h) fun _ hD' =>
      touches_redefine hD' (List.mem_singleton_self n)

/-! ## 3. A worked store -/


/-- A definition of `vm1`: a name, a uuid, one disk and one serial console. -/
def exampleDomain : Element :=
  ⟨"domain", [("type", "kvm")], none,
    [⟨"name", [], some "vm1", []⟩, ⟨"uuid", [], some "u1", []⟩,
     ⟨"devices", [], none,
       [⟨"disk", [("type", "file")], none, [⟨"target", [("dev", "vda")], none, []⟩]⟩,
        ⟨"serial", [("type", "pty")], none, [⟨"target", [("port", "0")], none, []⟩]⟩]⟩]⟩

/-- A store holding only `vm1`. -/
def exampleStore : Store where
  defs m := if m = "vm1" then some exampleDomain else none
  filed m d h := by
    by_cases hm : m = "vm1"
    · simp only [hm, if_true, Option.some.injEq] at h; subst h hm; decide
    · simp [hm] at h

/-- The running VM `vm1`, with the tool's answers to come. -/
def exampleWorld (replies : List Reply) : World :=
  ⟨exampleStore, replies, [], ⟨"vm1", some "u1", true⟩⟩

/-! ## 4. `set_vm_vcpus` -/

/-- The edit of `set_vm_vcpus`: `vmxml['vcpu'] = value`, or `del vmxml.vcpu` for `None`. -/
def vcpuUpdate (value : Option Int) (vmxml : Element) : Except PyError Element :=
  match value with
  | some v => vcpu.setInt vmxml v
  | none => vcpu.del vmxml

/-- `VMXML.set_vm_vcpus(vm_name, value)`: set the `vcpu` element, or delete it for `None`. -/
def setVmVcpus (vmName : String) (value : Option Int) : PyM Unit :=
  editDomain vmName (vcpuUpdate value)

/-- What `set_vm_vcpus` does to the document: `vmxml['vcpu'] = value` writes `str(value)` into
the first `vcpu` element, appending one when there is none, and `del vmxml.vcpu` removes it. -/
def vcpuEdit (value : Option Int) (d : Element) : Element :=
  match value with
  | some v => d.setChildText "vcpu" (toString v)
  | none => d.removeFirst "vcpu"

/-- Writing a vCPU count twice is writing it once. -/
theorem vcpuEdit_vcpuEdit (v : Int) (d : Element) :
    vcpuEdit (some v) (vcpuEdit (some v) d) = vcpuEdit (some v) d :=
  Element.setChildWith_setChildWith d "vcpu" (fun _ => rfl) (fun _ => rfl)

/-- On a `domain` document the accessors make the edit `vcpuEdit` describes. -/
theorem vcpuUpdate_eq {D : Element} (hD : D.tag = "domain") (value : Option Int) :
    vcpuUpdate value D = .ok (vcpuEdit value D) := by
  have ht : D.tag ≠ vcpu.tagName := by simp [hD, vcpu]
  cases value with
  | none => exact Descriptor.del_of_root xpathSteps_root ht (by decide)
  | some v => exact Descriptor.setText_of_root xpathSteps_root ht (by decide) _

/-- The edit keeps the name, so the edited definition is filed where the old one was. -/
theorem domainName_vcpuEdit {n : String} {D : Element} (hD : domainName D = some n)
    (value : Option Int) : domainName (vcpuEdit value D) = some n := by
  rw [← hD]
  cases value
  · exact domainName_removeFirst_of_ne (by decide)
  · exact domainName_setChildText_of_ne (by decide) _

section

variable {w : World} {n : String} {D : Element}

theorem setVmVcpus_eq (hD : w.store.defs n = some D) (h0 : w.replyAt 0 = .ok)
    (value : Option Int) :
    setVmVcpus n value w = redefine (vcpuEdit value D) (w.next (.dumpxml n)) := by
  simp only [setVmVcpus, editDomain, bind, EStateM.bind, newFromDumpxml, Virsh.dumpxml_run, h0,
    hD, vcpuUpdate_eq (tag_of_filed hD)]
  rfl

/-- **`set_vm_vcpus` redefines the domain with its `vcpu` element edited**: with the dump, the
`undefine` and the `define` answered, the store files the edited document under the same name
and keeps every other definition, and a number set is the text the `vcpu` property reads. -/
theorem setVmVcpus_ok (hD : w.store.defs n = some D) (h0 : w.replyAt 0 = .ok)
    (h1 : w.replyAt 1 = .ok) (h2 : w.replyAt 2 = .ok) (value : Option Int) :
    ∃ w', setVmVcpus n value w = .ok () w' ∧
      (∀ m, w'.store.defs m = if m = n then some (vcpuEdit value D) else w.store.defs m) ∧
      ∀ v, value = some v → vcpu.getText (vcpuEdit value D) = .ok (some (toString v)) := by
  rw [setVmVcpus_eq hD h0]
  obtain ⟨w', h, hs⟩ := redefine_ok (domainName_vcpuEdit (w.store.filed _ _ hD) value)
    (w := w.next (.dumpxml n)) (by simpa using h1) (by simpa using h2)
  refine ⟨w', h, by simpa using hs, ?_⟩
  rintro v rfl
  exact Descriptor.getText_setChildText_of_root xpathSteps_root
    (by simp [tag_of_filed hD, vcpu]) (by decide) _

theorem setVmVcpus_ok_vm1 : (exampleWorld []).store.defs "vm1" = some exampleDomain ∧
    ∃ w', setVmVcpus "vm1" (some 2) (exampleWorld []) = .ok () w' ∧
      w'.store.defs "vm1" = some (vcpuEdit (some 2) exampleDomain) := by
  obtain ⟨w', h, hs, -⟩ :=
    setVmVcpus_ok (w := exampleWorld []) (n := "vm1") rfl rfl rfl rfl (some 2)
  exact ⟨rfl, w', h, by simp [hs]⟩

/-- **A failed `define` loses the domain.**  The setters keep no backup: when `undefine` succeeds
and `define` fails, `set_vm_vcpus` raises the tool's error with the domain no longer defined, and
every other definition stays. -/
theorem setVmVcpus_define_fails (hD : w.store.defs n = some D) (h0 : w.replyAt 0 = .ok)
    (h1 : w.replyAt 1 = .ok) {detail : String} (h2 : w.replyAt 2 = .fail detail)
    (value : Option Int) :
    ∃ w', setVmVcpus n value w = .error (.cmdError detail) w' ∧
      ∀ m, w'.store.defs m = if m = n then none else w.store.defs m := by
  rw [setVmVcpus_eq hD h0, redefine_run (domainName_vcpuEdit (w.store.filed _ _ hD) value)]
  simp only [World.replyAt_next, h1, h2]
  exact ⟨_, rfl, fun m => by simp⟩

theorem setVmVcpus_define_fails_vm1 :
    (exampleWorld [.ok, .ok, .fail "boom"]).replyAt 2 = .fail "boom" ∧
      ∃ w', setVmVcpus "vm1" (some 2) (exampleWorld [.ok, .ok, .fail "boom"]) =
        .error (.cmdError "boom") w' ∧ w'.store.defs "vm1" = none := by
  obtain ⟨w', h, hs⟩ := setVmVcpus_define_fails (w := exampleWorld [.ok, .ok, .fail "boom"])
    (n := "vm1") rfl rfl rfl rfl (some 2)
  exact ⟨rfl, w', h, by simp [hs]⟩

end

theorem keepsName_vcpuUpdate (n : String) (value : Option Int) :
    KeepsName n (vcpuUpdate value) := fun D _ hD h => by
  rw [vcpuUpdate_eq (tag_of_domainName hD), Except.ok.injEq] at h
  exact h ▸ domainName_vcpuEdit hD value

/-- `set_vm_vcpus(n, value)` changes the definition filed under `n` and no other, on every
path: the edit keeps the document's name, so `define` files it where `undefine` removed it. -/
theorem touches_setVmVcpus (n : String) (value : Option Int) :
    Touches [n] (fun _ => True) (setVmVcpus n value) :=
  touches_editDomain (keepsName_vcpuUpdate n value)

/-! ## 5. `get_numa_params` -/

/-- `numa.find('memory').get(key)`, where `numa` is what `find('numatune')` gave: either lookup
giving `None` makes the next attribute access raise `AttributeError`. -/
def numaMemoryGet (vmxml : Element) (numa : Option Path) (key : String) :
    Except PyError (Option String) :=
  match numa with
  | none => .error .attributeError
  | some p => match (vmxml.findAt p "memory").bind vmxml.getAt? with
    | some memory => .ok (memory.get key)
    | none => .error .attributeError

/-- `VMXML.get_numa_params(vm_name)`, an instance method that never reads its instance.  Both
`except:` clauses are bare and only log; the outer one guards `find('numatune')`, which returns
`None` rather than raise, so only the dump can raise.  An assignment made before the inner
clause caught its exception stays in `numa_params`. -/
def getNumaParams (vmName : String) : PyM (List (String × Option String)) := do
  let vmxml ← newFromDumpxml vmName
  let numa := (vmxml.find "numatune").map ([·])
  pure <| match numaMemoryGet vmxml numa "mode" with
    | .error _ => []
    | .ok mode => match numaMemoryGet vmxml numa "nodeset" with
      | .error _ => dictSet [] "mode" mode
      | .ok nodeset => dictSet (dictSet [] "mode" mode) "nodeset" nodeset

/-- The `memory` element of the document's first `numatune`. -/
def numaMemory (d : Element) : Option Element :=
  (d.children.find? (·.tag == "numatune")).bind (·.children.find? (·.tag == "memory"))

/-- The dictionary read off a document: both attributes of the `memory` element, or nothing. -/
def numaParamsOf (d : Element) : List (String × Option String) :=
  match numaMemory d with
  | some memory => [("mode", memory.get "mode"), ("nodeset", memory.get "nodeset")]
  | none => []

theorem numaMemoryGet_eq (d : Element) (key : String) :
    numaMemoryGet d ((d.find "numatune").map ([·])) key =
      match numaMemory d with
      | some memory => .ok (memory.get key)
      | none => .error .attributeError := by
  have h : ((d.find "numatune").bind d.child?).bind (·.children.find? (·.tag == "memory")) =
      numaMemory d := by
    rw [Element.bind_child?_find]; rfl
  rw [← h]
  cases d.find "numatune" with
  | none => rfl
  | some i => simp [numaMemoryGet, Element.bind_getAt?_findAt]

/-- **`get_numa_params` reads both attributes of `numatune/memory`, or neither.**  In every
world it raises what the dump raises, and otherwise returns `numaParamsOf` of the dumped
document: the keys `mode` and `nodeset` together when the first `numatune` has a `memory` child,
the empty dictionary when either is missing, and never one key alone. -/
theorem getNumaParams_eq (n : String) (w : World) :
    getNumaParams n w = match newFromDumpxml n w with
      | .ok d w' => .ok (numaParamsOf d) w'
      | .error e w' => .error e w' := by
  simp only [getNumaParams, bind, EStateM.bind]
  cases newFromDumpxml n w with
  | error e w' => rfl
  | ok d w' =>
    simp only [numaMemoryGet_eq, numaParamsOf]
    cases numaMemory d <;> rfl

theorem touches_getNumaParams (n : String) : Touches [] (fun _ => True) (getNumaParams n) :=
  touches_bind (touches_dumpxml n) fun _ _ => touches_pure trivial

end VMXML

end LibvirtXml
