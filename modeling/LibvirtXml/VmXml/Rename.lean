/-
# `VMXML.vm_rename`: undefine, edit, define, and the rollback

`vm_rename` cannot rename a defined domain in place, so it goes round the external tool:

    vmxml = VMXML.new_from_dumpxml(vm.name)      # dumpxml
    backup = vmxml.copy()
    vmxml.undefine()                              # remove_domain; CmdError -> LibvirtXMLError
    vmxml.vm_name = new_name; del/set vmxml.uuid; vm.uuid = uuid
    vmxml.define()                                # define; CmdError -> backup.define(), raise
    vm.name = new_name

Four calls can fail, so a run has five outcomes, and `renameXml_run` lists them all, from any world
whose store holds the VM's definition.  The two results about the procedure follow from it by
reading off the outcomes:

* `vmRename_ok`: a run that returns has moved the definition from the old name to the new one,
  edited only in its `name` and `uuid` elements (`renamed`), and touched no other domain;
* `vmRename_error`: a run that raises has left the store as it was, unless both `define` calls
  failed, and has left the VM object's name alone.  Two things it does NOT give: the VM object's
  uuid is assigned BEFORE `define` runs, and a failed rollback raises its own `CmdError`, which
  does not mention the first failure (`vmRename_double_failure`).

Whatever the store holds, a run changes no definition but the VM's and the new name's, and leaves
the VM object with its old name or the new one (`vmRename_after`).

`backup = vmxml.copy()` is an independent copy; in the model documents are values, so the copy
is the dumped document itself, and the edits to the working copy cannot reach it.
-/
import LibvirtXml.VmXml.Basic

namespace LibvirtXml

namespace VMXML

/-! ## 1. The procedures -/

/-- `vm.destroy(gracefully=True)`. -/
def destroy : PyM Unit := modify fun w => { w with vm := { w.vm with alive := false } }

/-- The middle of `vm_rename`, "Alter the XML": the new name, then the new uuid (or none) on the
document and on the VM object. -/
def alterXml (vmxml : Element) (newName : String) (uuid : Option String) : PyM Element := do
  let vmxml ← ofExcept (vmName.setText vmxml newName)
  match uuid with
  | none =>
    let vmxml ← ofExcept (LibvirtXml.uuid.del vmxml)
    modify fun w => { w with vm := { w.vm with uuid := none } }
    pure vmxml
  | some u =>
    let vmxml ← ofExcept (LibvirtXml.uuid.setText vmxml u)
    modify fun w => { w with vm := { w.vm with uuid := some u } }
    pure vmxml

/-- `vm_rename` once the VM is down: dump, undefine, edit, define, and roll back on failure. -/
def renameXml (newName : String) (uuid : Option String) : PyM Vm := do
  let vmxml ← newFromDumpxml (← get).vm.name
  let backup := vmxml
  exceptCmdError (undefine vmxml) fun detail =>
    throw (.libvirtXMLError ("Error reported while undefining VM:\n" ++ detail))
  let vmxml ← alterXml vmxml newName uuid
  exceptCmdError (define vmxml) fun detail => do
    define backup
    throw (.libvirtXMLError ("Error reported while defining VM:\n" ++ detail))
  modify fun w => { w with vm := { w.vm with name := newName } }
  return (← get).vm

/-- `VMXML.vm_rename(vm, new_name, uuid)`, on the world's VM object. -/
def vmRename (newName : String) (uuid : Option String) : PyM Vm := do
  if (← get).vm.alive then destroy
  renameXml newName uuid

/-! ## 2. What the document becomes -/

/-- The document `vm_rename` defines, as its spec says it: `D` with the text of its `name`
element replaced by the new name, and its `uuid` element replaced by the given uuid or, when there
is none, removed. -/
def renamed (D : Element) (newName : String) (uuid : Option String) : Element :=
  match uuid with
  | some u => (D.setChildText "name" newName).setChildText "uuid" u
  | none => (D.setChildText "name" newName).removeFirst "uuid"

theorem domainName_renamed {D : Element} (hD : D.tag = "domain") (newName : String)
    (uuid : Option String) : domainName (renamed D newName uuid) = some newName := by
  cases uuid <;> simp only [renamed, domainName_removeFirst_of_ne (by decide : "uuid" ≠ "name"),
    domainName_setChildText_of_ne (by decide : "uuid" ≠ "name"), domainName_setChildText_name hD]

/-- Renaming twice to one name and one uuid is renaming once: the document already carries
both. -/
theorem renamed_renamed {D : Element} (hD : D.tag = "domain") (newName u : String) :
    renamed (renamed D newName (some u)) newName (some u) = renamed D newName (some u) := by
  have hname := domainName_renamed hD newName (some u)
  simp only [domainName, Element.tag_setChildText, renamed, hD, if_true,
    Option.bind_eq_some] at hname
  obtain ⟨x, hx, hxt⟩ := hname
  obtain ⟨y, hy, hyt⟩ := Element.text_setChildText (D.setChildText "name" newName) "uuid" u
  rw [Element.bind_child?_find] at hy
  simp only [renamed]
  rw [Element.setChildText_eq_self hx hxt, Element.setChildText_eq_self hy hyt]

/-- **The accessor edits are the spec's edits.** -/
theorem alterXml_run {D : Element} (hD : D.tag = "domain") (newName : String)
    (uuid : Option String) (w : World) :
    alterXml D newName uuid w =
      .ok (renamed D newName uuid) { w with vm := { w.vm with uuid := uuid } } := by
  have hroot : ∀ t : String, t ≠ "domain" → D.tag ≠ t := fun t ht h => ht (hD ▸ h.symm)
  have hname : vmName.setText D newName = .ok (D.setChildText "name" newName) :=
    Descriptor.setText_of_root xpathSteps_root (hroot "name" (by decide)) (by simp [vmName]) newName
  have hroot' : (D.setChildText "name" newName).tag ≠ "uuid" := by
    simpa using hroot "uuid" (by decide)
  cases uuid with
  | none =>
    have hu : LibvirtXml.uuid.del (D.setChildText "name" newName) =
        .ok ((D.setChildText "name" newName).removeFirst "uuid") :=
      Descriptor.del_of_root xpathSteps_root hroot' (by simp [LibvirtXml.uuid])
    simp only [alterXml, bind, EStateM.bind, hname, hu, ofExcept, pure, EStateM.pure, modify,
      modifyGet, MonadStateOf.modifyGet, EStateM.modifyGet]
    rfl
  | some u =>
    have hu : LibvirtXml.uuid.setText (D.setChildText "name" newName) u =
        .ok ((D.setChildText "name" newName).setChildText "uuid" u) :=
      Descriptor.setText_of_root xpathSteps_root hroot' (by simp [LibvirtXml.uuid]) u
    simp only [alterXml, bind, EStateM.bind, hname, hu, ofExcept, pure, EStateM.pure, modify,
      modifyGet, MonadStateOf.modifyGet, EStateM.modifyGet]
    rfl

/-! ## 3. The runs -/

theorem domainName_renamed_of_filed {s : Store} {n : String} {D : Element}
    (hD : s.defs n = some D) (newName : String) (uuid : Option String) :
    domainName (renamed D newName uuid) = some newName :=
  domainName_renamed (tag_of_filed hD) newName uuid

/-- Putting the VM down only clears its `alive` flag. -/
theorem vmRename_eq (newName : String) (uuid : Option String) (w : World) :
    vmRename newName uuid w = renameXml newName uuid { w with vm := { w.vm with alive := false } } := by
  obtain ⟨s, rs, cs, ⟨n, u, alive⟩⟩ := w
  cases alive <;> rfl

/-- **The runs of `vm_rename`**, from any world whose store holds the VM's definition `D`.  The
answers to the four calls decide the outcome, and every outcome is listed: a failed `dumpxml`, a
failed `undefine`, a failed `define` with a failed or a successful rollback, and success. -/
theorem renameXml_run {w : World} {D : Element} (hD : w.store.defs w.vm.name = some D)
    (newName : String) (uuid : Option String) :
    renameXml newName uuid w =
      let n := w.vm.name
      let D' := renamed D newName uuid
      let w₁ := w.next (.dumpxml n)
      let w₂ := w₁.next (.removeDomain n)
      let w₃ : World := { w₂ with store := w.store.erase n, vm := { w₂.vm with uuid := uuid } }
      match w.replyAt 0, w.replyAt 1, w.replyAt 2, w.replyAt 3 with
      | .fail d, _, _, _ => .error (.cmdError d) w₁
      | .ok, .fail d, _, _ =>
        .error (.libvirtXMLError ("Error reported while undefining VM:\n" ++ d)) w₂
      | .ok, .ok, .fail _, .fail d' => .error (.cmdError d') ((w₃.next (.define D')).next (.define D))
      | .ok, .ok, .fail d, .ok =>
        .error (.libvirtXMLError ("Error reported while defining VM:\n" ++ d))
          { (w₃.next (.define D')).next (.define D) with store := w.store }
      | .ok, .ok, .ok, _ =>
        let w₄ : World := { w₃.next (.define D') with
          store := (w.store.erase n).put newName D' (domainName_renamed_of_filed hD newName uuid),
          vm := { w₃.vm with name := newName } }
        .ok w₄.vm w₄ := by
  have hn : domainName D = some w.vm.name := w.store.filed _ _ hD
  have hback : (w.store.erase w.vm.name).define D = some w.store := Store.define_erase_self hD
  simp only [renameXml, bind, EStateM.bind, get, getThe, MonadStateOf.get, EStateM.get,
    newFromDumpxml, Virsh.dumpxml_run, hD]
  cases h0 : w.replyAt 0
  case fail => rfl
  case ok =>
  simp only [exceptCmdError, undefine_run hn, Virsh.removeDomain_run, World.replyAt_next, h0]
  cases h1 : w.replyAt 1
  case fail => rfl
  case ok =>
  simp only [alterXml_run (tag_of_filed hD), define, Virsh.define_run, World.replyAt_next,
    World.replyAt_mk, h1, World.next_store]
  cases h2 : w.replyAt 2
  case ok =>
    simp only [exceptCmdError, Store.define_eq_some (domainName_renamed_of_filed hD newName uuid)]
    rfl
  case fail =>
    cases h3 : w.replyAt 3 <;>
      simp only [exceptCmdError, bind, EStateM.bind, Virsh.define_run, World.replyAt_next,
        World.replyAt_mk, World.next_store, h3, hback]
    rfl

/-! ## 4. What a run that returns, and a run that raises, leave behind -/

/-- **A rename that returns has moved the definition.**  The old name is no longer defined, the
new one holds `D` with its name and uuid replaced, every other entry is as it was, and the VM
object carries the new name and uuid. -/
theorem vmRename_ok {w : World} {D : Element} (hD : w.store.defs w.vm.name = some D)
    {newName : String} {uuid : Option String} {vm' : Vm} {w' : World}
    (h : vmRename newName uuid w = .ok vm' w') :
    (∀ m, w'.store.defs m = if m = newName then some (renamed D newName uuid)
      else if m = w.vm.name then none else w.store.defs m) ∧
    vm'.name = newName ∧ vm'.uuid = uuid ∧ w'.vm = vm' := by
  rw [vmRename_eq, renameXml_run (w := { w with vm := { w.vm with alive := false } }) hD] at h
  simp only [World.replyAt_mk] at h
  split at h <;> cases h
  simp

/-- What a failed `vm_rename` leaves behind, by which call failed. -/
structure RenameFailure (w w' : World) (e : PyError) : Prop where
  /-- The VM object keeps its name. -/
  name_kept : w'.vm.name = w.vm.name
  /-- A failed `dumpxml` or `undefine` changes neither the store nor the VM object's uuid. -/
  early : ((∃ d, w.replyAt 0 = .fail d) ∨ (w.replyAt 0 = .ok ∧ ∃ d, w.replyAt 1 = .fail d)) →
    w'.store = w.store ∧ w'.vm.uuid = w.vm.uuid
  /-- A failed `define` whose rollback succeeds restores the store and reports the failure. -/
  rolled_back : ∀ d, w.replyAt 0 = .ok → w.replyAt 1 = .ok → w.replyAt 2 = .fail d →
    w.replyAt 3 = .ok →
    w'.store = w.store ∧ e = .libvirtXMLError ("Error reported while defining VM:\n" ++ d)
  /-- When the rollback fails too, its own `CmdError` is what is raised. -/
  double : ∀ d d', w.replyAt 0 = .ok → w.replyAt 1 = .ok → w.replyAt 2 = .fail d →
    w.replyAt 3 = .fail d' → e = .cmdError d'

/-- **A rename that raises**, on every pattern of failures. -/
theorem vmRename_error {w : World} {D : Element} (hD : w.store.defs w.vm.name = some D)
    {newName : String} {uuid : Option String} {e : PyError} {w' : World}
    (h : vmRename newName uuid w = .error e w') : RenameFailure w w' e := by
  rw [vmRename_eq, renameXml_run (w := { w with vm := { w.vm with alive := false } }) hD] at h
  simp only [World.replyAt_mk] at h
  constructor <;>
    cases h0 : w.replyAt 0 <;> cases h1 : w.replyAt 1 <;> cases h2 : w.replyAt 2 <;>
    cases h3 : w.replyAt 3 <;> simp only [h0, h1, h2, h3] at h <;>
    obtain ⟨rfl, rfl⟩ := h <;> simp

/-- Without a definition for the VM, the dump raises and nothing else happens. -/
theorem renameXml_undefined {w : World} (hD : w.store.defs w.vm.name = none)
    (newName : String) (uuid : Option String) :
    ∃ e, renameXml newName uuid w = .error e (w.next (.dumpxml w.vm.name)) := by
  simp only [renameXml, bind, EStateM.bind, get, getThe, MonadStateOf.get, EStateM.get,
    newFromDumpxml, Virsh.dumpxml_run, hD]
  cases w.replyAt 0 <;> exact ⟨_, rfl⟩

/-- **What `vm_rename` can change**, from every world and on every path: the VM object keeps its
name or takes the new one, and only the VM's and the new name's definitions can change. -/
theorem vmRename_after (newName : String) (uuid : Option String) (w : World) :
    ((after (vmRename newName uuid w)).vm.name = w.vm.name ∨
      (after (vmRename newName uuid w)).vm.name = newName) ∧
    ∀ m, m ≠ w.vm.name → m ≠ newName →
      (after (vmRename newName uuid w)).store.defs m = w.store.defs m := by
  rw [vmRename_eq]
  cases hD : w.store.defs w.vm.name with
  | none =>
    obtain ⟨e, he⟩ := renameXml_undefined (w := { w with vm := { w.vm with alive := false } }) hD
      newName uuid
    simp [he, after]
  | some D =>
    rw [renameXml_run (w := { w with vm := { w.vm with alive := false } }) hD]
    simp only [World.replyAt_mk]
    split <;> simp +contextual [after]

/-! ## 5. Worked cases -/

theorem vmRename_ok_vm2 : ∃ vm' w', vmRename "vm2" none (exampleWorld []) = .ok vm' w' ∧
    (∀ m, w'.store.defs m = if m = "vm2" then some (renamed exampleDomain "vm2" none)
      else if m = "vm1" then none else exampleStore.defs m) ∧
    vm'.name = "vm2" ∧ vm'.uuid = none ∧ w'.vm = vm' := by
  obtain ⟨vm', w', h⟩ : ∃ vm' w', vmRename "vm2" none (exampleWorld []) = .ok vm' w' :=
    ⟨_, _, rfl⟩
  exact ⟨vm', w', h, vmRename_ok (D := exampleDomain) rfl h⟩

theorem vmRename_error_rolled_back : ∃ e w',
    vmRename "vm2" none (exampleWorld [.ok, .ok, .fail "define failed"]) = .error e w' ∧
      RenameFailure (exampleWorld [.ok, .ok, .fail "define failed"]) w' e := by
  obtain ⟨e, w', h⟩ : ∃ e w',
      vmRename "vm2" none (exampleWorld [.ok, .ok, .fail "define failed"]) = .error e w' :=
    ⟨_, _, rfl⟩
  exact ⟨e, w', h, vmRename_error (D := exampleDomain) rfl h⟩

/-- **The rollback's failure hides the first one.**  When `define` and its rollback both fail,
`vm_rename` raises the rollback's `CmdError`, and nothing in it says why the renamed definition
was refused. -/
theorem vmRename_double_failure : ∃ w', vmRename "vm2" none
    (exampleWorld [.ok, .ok, .fail "define failed", .fail "rollback failed"]) =
      .error (.cmdError "rollback failed") w' ∧
    ¬ (PyError.cmdError "rollback failed").reports "define failed" :=
  ⟨_, rfl, by decide⟩

end VMXML

end LibvirtXml
