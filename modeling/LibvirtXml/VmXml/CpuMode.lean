/-
# `set_cpu_mode`: a validator that trims, a writer that does not

`check_cpu_mode` accepts a mode when `mode.strip()` is one of `custom`, `host-model`,
`host-passthrough`, and `set_cpu_mode` checks before it touches anything: an invalid mode raises
`LibvirtXMLError` after the dump and before any `undefine` or `define` (`setCpuMode_invalid`).

The writer then stores `mode` itself, not `mode.strip()`.  On a valid mode the definition comes
back with the first `cpu` child of the root (or a new one at the end of the root) carrying the
mode exactly as given (`setCpuMode_valid`), so a padded mode such as `" custom"` passes the check
and is written padded, a value outside the three the check's own comment lists
(`setCpuMode_padded`).
-/
import LibvirtXml.VmXml.Basic

namespace LibvirtXml

namespace VMXML

/-! ## 1. The validator -/

/-- The characters `str.strip()` removes from a byte string. -/
def pyIsSpace (c : Char) : Bool :=
  c == ' ' || c == '\t' || c == '\n' || c == '\r' || c == '\x0b' || c == '\x0c'

/-- `s.strip()`. -/
def pyStrip (s : String) : String :=
  ⟨((s.toList.dropWhile pyIsSpace).reverse.dropWhile pyIsSpace).reverse⟩

/-- "Possible values for the mode attribute are: custom, host-model, host-passthrough". -/
def cpuModes : List String := ["custom", "host-model", "host-passthrough"]

/-- `VMXML.check_cpu_mode(mode)`. -/
def checkCpuMode (mode : String) : Except PyError Unit :=
  if pyStrip mode ∈ cpuModes then .ok ()
  else .error (.libvirtXMLError ("The cpu mode '" ++ mode ++ "' is invalid!"))

/-! ## 2. The writer -/

/-- The `try`/`except AttributeError` of `set_cpu_mode`: `find('/cpu')` and set its mode, or,
when the find returns `None` and `cpu.get` raises, append `<cpu mode=…/>` to the root. -/
def writeCpuMode (vmxml : Element) (mode : String) : Element :=
  match vmxml.find "cpu" with
  | some i => vmxml.modifyChild i (·.set "mode" mode)
  | none => vmxml.subElement "cpu" [("mode", mode)]

/-- The edit of `set_cpu_mode`: the check, then the writer. -/
def cpuModeUpdate (mode : String) (vmxml : Element) : Except PyError Element := do
  checkCpuMode mode
  pure (writeCpuMode vmxml mode)

/-- `VMXML.set_cpu_mode(vm_name, mode)` (the source's default mode is `'host-model'`). -/
def setCpuMode (vmName mode : String) : PyM Unit :=
  editDomain vmName (cpuModeUpdate mode)

/-- The mode of the root's first `cpu` child. -/
def cpuModeOf (d : Element) : Option String :=
  (d.children.find? (·.tag == "cpu")).bind (·.get "mode")

/-- **What the writer writes**: the first `cpu` child carries `mode` exactly as given. -/
theorem cpuModeOf_writeCpuMode (d : Element) (mode : String) :
    cpuModeOf (writeCpuMode d mode) = some mode := by
  have hcpu : ∀ e : Element,
      cpuModeOf e = ((e.find "cpu").bind e.child?).bind (·.get "mode") := by
    intro e; rw [Element.bind_child?_find]; rfl
  rw [hcpu]
  unfold writeCpuMode
  cases hf : d.find "cpu" with
  | some i =>
    obtain ⟨c, hc, -⟩ := Element.child?_of_find hf
    simp [hf, Element.find_modifyChild _ _ (Element.tag_set · "mode" mode),
      Element.child?_modifyChild_self, hc]
  | none =>
    simp [Element.find_subElement_self hf, Element.child?_subElement_length, Element.get]

/-- The writer keeps the domain's name. -/
theorem domainName_writeCpuMode (d : Element) (mode : String) :
    domainName (writeCpuMode d mode) = domainName d := by
  unfold writeCpuMode
  cases hf : d.find "cpu" with
  | some i =>
    exact domainName_modifyChild (tag_ne_of_find (by decide) hf) (Element.tag_set · "mode" mode)
  | none => exact domainName_subElement (by decide) _

/-- Writing a mode twice is writing it once. -/
theorem writeCpuMode_writeCpuMode (d : Element) (mode : String) :
    writeCpuMode (writeCpuMode d mode) mode = writeCpuMode d mode := by
  cases h : d.find "cpu" with
  | some i =>
    simp only [writeCpuMode, h, Element.find_modifyChild _ _ (Element.tag_set · "mode" mode),
      Element.modifyChild_modifyChild, Function.comp_def, Element.set_set_self]
  | none =>
    simp only [writeCpuMode, h, Element.find_subElement_self h]
    exact Element.modifyChild_eq_self (Element.child?_subElement_length d "cpu" _)
      (Element.set_eq_self (by simp [Element.get]))

/-! ## 3. The two outcomes -/

section

variable {w : World} {n : String} {D : Element}

theorem setCpuMode_eq (hD : w.store.defs n = some D) (h0 : w.replyAt 0 = .ok) (mode : String) :
    setCpuMode n mode w = match checkCpuMode mode with
      | .ok () => redefine (writeCpuMode D mode) (w.next (.dumpxml n))
      | .error e => .error e (w.next (.dumpxml n)) := by
  simp only [setCpuMode, editDomain, cpuModeUpdate, bind, EStateM.bind, newFromDumpxml,
    Virsh.dumpxml_run, h0, hD]
  cases checkCpuMode mode <;> rfl

/-- **An invalid mode changes nothing**: after the dump, `set_cpu_mode` raises the validator's
error, with no `undefine` or `define` call and the store as it was. -/
theorem setCpuMode_invalid (hD : w.store.defs n = some D) (h0 : w.replyAt 0 = .ok)
    {mode : String} (hm : pyStrip mode ∉ cpuModes) :
    setCpuMode n mode w = .error (.libvirtXMLError ("The cpu mode '" ++ mode ++ "' is invalid!"))
      (w.next (.dumpxml n)) := by
  rw [setCpuMode_eq hD h0]
  simp [checkCpuMode, hm]

theorem setCpuMode_invalid_vm1 : pyStrip "hostmodel" ∉ cpuModes ∧
    setCpuMode "vm1" "hostmodel" (exampleWorld []) =
      .error (.libvirtXMLError ("The cpu mode '" ++ "hostmodel" ++ "' is invalid!"))
        ((exampleWorld []).next (.dumpxml "vm1")) :=
  ⟨by decide, setCpuMode_invalid (w := exampleWorld []) (n := "vm1") rfl rfl (by decide)⟩

/-- **A valid mode is written as given**: with the three calls answered, the definition comes back
with the cpu mode edit and nothing else changed in the store. -/
theorem setCpuMode_valid (hD : w.store.defs n = some D) (h0 : w.replyAt 0 = .ok)
    (h1 : w.replyAt 1 = .ok) (h2 : w.replyAt 2 = .ok) {mode : String} (hm : pyStrip mode ∈ cpuModes) :
    ∃ w', setCpuMode n mode w = .ok () w' ∧
      ∀ m, w'.store.defs m = if m = n then some (writeCpuMode D mode) else w.store.defs m := by
  have hn : domainName (writeCpuMode D mode) = some n := by
    rw [domainName_writeCpuMode]; exact w.store.filed n D hD
  rw [setCpuMode_eq hD h0]
  simp only [checkCpuMode, hm, if_true]
  simpa using redefine_ok hn (w := w.next (.dumpxml n)) (by simpa using h1) (by simpa using h2)

end

theorem keepsName_cpuModeUpdate (n mode : String) : KeepsName n (cpuModeUpdate mode) :=
  fun D _ hD h => by
    cases hc : checkCpuMode mode <;> simp only [cpuModeUpdate, hc, bind, Except.bind, pure,
      Except.pure, Except.ok.injEq, reduceCtorEq] at h
    subst h
    rw [domainName_writeCpuMode, hD]

/-- `set_cpu_mode(n, mode)` changes the definition filed under `n` and no other, on every path. -/
theorem touches_setCpuMode (n mode : String) :
    Touches [n] (fun _ => True) (setCpuMode n mode) :=
  touches_editDomain (keepsName_cpuModeUpdate n mode)

/-- **A padded mode passes the check and is written padded.**  `" custom"` strips to `"custom"`,
and `set_cpu_mode("vm1", " custom")` defines `vm1` with the cpu mode `" custom"`. -/
theorem setCpuMode_padded : pyStrip " custom" = "custom" ∧
    ∃ w', setCpuMode "vm1" " custom" (exampleWorld []) = .ok () w' ∧
      (w'.store.defs "vm1").bind cpuModeOf = some " custom" := by
  refine ⟨by decide, ?_⟩
  obtain ⟨w', h, hs⟩ :=
    setCpuMode_valid (w := exampleWorld []) (n := "vm1") (D := exampleDomain) rfl rfl rfl rfl (show pyStrip " custom" ∈ cpuModes by decide)
  exact ⟨w', h, by simp [hs, cpuModeOf_writeCpuMode]⟩

end VMXML

end LibvirtXml
