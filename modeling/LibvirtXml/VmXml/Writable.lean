/-
# What the façade hands to the tool reads back

`define()` hands the tool the document as written, and `set_primary_serial` reads its own
written file back (`vmxml.set_xml(xmltreefile.name)`).  `Markup.parse_write` says that a written
document reads back as itself when it is `writable`.  This module proves that the façade never
makes a writable document unwritable, as long as the values it writes read back.

* **The edits** (§1, §2).  The setter and the deleter of every descriptor whose path and tag are
  XML names (`Descriptor.writable_setText`, `Descriptor.writable_del`), `SubElement` and `remove`
  by address, and the edits of the three setters and of `vm_rename` (`writable_vcpuUpdate`,
  `writable_cpuModeUpdate`, `writable_primarySerialUpdate`, `writable_renamed`) keep a document
  writable.  An integer property always writes a text that reads back (`textWritable_toString`).
* **The store** (§3, §4).  `Keeps I Q x` says that from a store whose definitions all satisfy
  `I`, the procedure `x` leaves only such definitions, whatever the tool answers, and returns
  only results satisfying `Q`; it has one rule per call and per way a procedure is built.  With
  `I` the writable documents, every call keeps every definition of the hypervisor writable
  (`Op.keeps_writable`), and so does every session (`session_writable`).
* **The instance's document** (§5).  Every session of feature calls keeps the instance's
  document writable (`featureSession_writable`).
* **The read-back** (§6).  `set_primary_serial` with its write and read-back modelled
  (`setPrimarySerialReadBack`) sorts the attributes of the document it redefines and changes
  nothing else, when the values it writes read back (`editDomain_readBack`,
  `setPrimarySerialReadBack_reliable`).

The condition on the values is needed.  The cpu mode `"custom\n"` passes `check_cpu_mode`,
whose `strip()` drops the newline, and is written raw into the `mode` attribute, where the
parser reads the newline back as a space; a rename to `""` writes `<name />`, which reads back
with no name at all.
-/
import LibvirtXml.Write
import LibvirtXml.VmXml.Session
import LibvirtXml.VmXml.CpuXml
import Mathlib.Data.Nat.Digits

namespace LibvirtXml

open Markup

/-! ## 1. Edits by address and by descriptor -/

namespace Element

variable {d d' : Element}

/-- The new empty child a setter appends, with no attributes. -/
theorem writable_empty {t : String} (ht : isName t = true) : writable ⟨t, [], none, []⟩ = true :=
  writable_leaf ht List.nodup_nil rfl

/-- `SubElement(parent, t, a)` by address, for a new child that is writable. -/
theorem writable_of_subElementAt {parent : Option Path} {t : String} {a : List (String × String)}
    {r : Path} (hd : writable d = true) (hc : writable ⟨t, a, none, []⟩ = true)
    (h : d.subElementAt parent t a = .ok (d', r)) : writable d' = true := by
  obtain ⟨p, -, rfl, -⟩ := subElementAt_eq_ok h
  exact writable_modifyAt (fun _ hx => writable_subElement hx hc) p hd

/-- `parent.remove(ref)` by address. -/
theorem writable_of_removeAt {parent : Path} {r : Option Path} (hd : writable d = true)
    (h : d.removeAt parent r = .ok d') : writable d' = true := by
  unfold removeAt at h
  split at h
  · cases h
  · split at h
    · split at h
      · cases h; exact writable_modifyAt (fun _ hx => writable_removeChild hx _) parent hd
      · cases h
    · cases h

theorem writable_setChildWith (hd : writable d = true) {t : String} (ht : isName t = true)
    {f : Element → Element} (hf : ∀ x, writable x = true → writable (f x) = true) :
    writable (d.setChildWith t f) = true := by
  unfold setChildWith
  split
  · exact writable_modifyChild hf hd _
  · exact writable_modifyChild hf (writable_subElement hd (writable_empty ht)) _

theorem writable_setChildText (hd : writable d = true) {t v : String} (ht : isName t = true)
    (hv : textWritable v = true) : writable (d.setChildText t v) = true := by
  rw [setChildText_eq_setChildWith]
  exact writable_setChildWith hd ht fun _ hx => writable_text hx hv

theorem writable_removeFirst (hd : writable d = true) (t : String) :
    writable (d.removeFirst t) = true := by
  unfold removeFirst
  split
  · exact writable_removeChild hd _
  · exact hd

theorem writable_ensureChild (hd : writable d = true) (p : Path) {t : String}
    (ht : isName t = true) : writable (d.ensureChild p t).1 = true := by
  unfold ensureChild
  split
  · exact hd
  · exact writable_modifyAt (fun _ hx => writable_subElement hx (writable_empty ht)) p hd

theorem writable_ensurePath : ∀ (ts : List String) {d : Element} (p : Path),
    writable d = true → ts.all isName = true → writable (d.ensurePath p ts).1 = true
  | [], _, _, hd, _ => hd
  | t :: ts, d, p, hd, hts => by
    simp only [List.all_cons, Bool.and_eq_true] at hts
    exact writable_ensurePath ts _ (writable_ensureChild hd p hts.1) hts.2

end Element

namespace Descriptor

/-- The parent path's steps and the tag are XML names: what the setter creates is writable. -/
def namesWritable (desc : Descriptor) : Bool :=
  (xpathSteps desc.parentXpath).all isName && isName desc.tagName

variable {desc : Descriptor} {d d' : Element}

theorem writable_locateOrCreate (hn : desc.namesWritable = true) (hd : writable d = true) :
    writable (desc.locateOrCreate d).1 = true := by
  simp only [namesWritable, Bool.and_eq_true] at hn
  unfold locateOrCreate
  split
  · exact hd
  · exact Element.writable_ensureChild (Element.writable_ensurePath _ _ hd hn.1) _ hn.2

/-- **The setter keeps a document writable**, for a text that reads back. -/
theorem writable_setText (hn : desc.namesWritable = true) (hd : writable d = true) {v : String}
    (hv : textWritable v = true) (h : desc.setText d v = .ok d') : writable d' = true := by
  cases hc : desc.check "set" with
  | error e => simp [setText, hc, bind, Except.bind] at h
  | ok u =>
    simp only [setText, hc, bind, Except.bind, pure, Except.pure, Except.ok.injEq] at h
    subst h
    exact writable_modifyAt (fun _ hx => writable_text hx hv) _ (writable_locateOrCreate hn hd)

/-- **The deleter keeps a document writable.** -/
theorem writable_del (hd : writable d = true) (h : desc.del d = .ok d') : writable d' = true := by
  cases hc : desc.check "del" with
  | error e => simp [del, hc, bind, Except.bind] at h
  | ok u =>
    simp only [del, hc, bind, Except.bind] at h
    split at h
    · split at h
      · cases h; exact writable_modifyAt (fun _ hx => writable_removeChild hx _) _ hd
      · cases h; exact hd
    · cases h; exact hd

end Descriptor

/-! ## 2. The façade's edits

`str(value)` of an integer is its digits, after a `-` for a negative one: a text that reads back,
so `set_vm_vcpus` needs no condition on its value. -/

theorem textSafe_digitChar : ∀ k < 10, textSafe (Nat.digitChar k) = true := by decide

/-- The digits `Nat.toDigitsCore` puts in front of those already written read back. -/
theorem textSafe_toDigitsCore : ∀ (f n : Nat) {ds : List Char},
    ds.all textSafe = true → (Nat.toDigitsCore 10 f n ds).all textSafe = true
  | 0, _, _, hds => hds
  | f + 1, n, ds, hds => by
    have hd : (Nat.digitChar (n % 10) :: ds).all textSafe = true := by
      simp [textSafe_digitChar _ (Nat.mod_lt n (by decide)), hds]
    simp only [Nat.toDigitsCore]
    split
    · exact hd
    · exact textSafe_toDigitsCore f _ hd

theorem toDigitsCore_ne_nil : ∀ (f n : Nat) {ds : List Char}, ds ≠ [] →
    Nat.toDigitsCore 10 f n ds ≠ []
  | 0, _, _, h => h
  | f + 1, n, ds, _ => by
    simp only [Nat.toDigitsCore]
    split
    · exact List.cons_ne_nil _ _
    · exact toDigitsCore_ne_nil f _ (List.cons_ne_nil _ _)

theorem toDigits_ne_nil (m : Nat) : Nat.toDigits 10 m ≠ [] := by
  simp only [Nat.toDigits, Nat.toDigitsCore]
  split
  · exact List.cons_ne_nil _ _
  · exact toDigitsCore_ne_nil m _ (List.cons_ne_nil _ _)

theorem textWritable_repr (m : Nat) : textWritable (Nat.repr m) = true := by
  simp only [textWritable, Nat.repr, Bool.and_eq_true, bne_iff_ne]
  exact ⟨fun h => toDigits_ne_nil m (congrArg String.data h), textSafe_toDigitsCore (m + 1) m rfl⟩

/-- **`str(value)` of an integer reads back**, whatever the integer. -/
theorem textWritable_toString (v : Int) : textWritable (toString v) = true := by
  cases v with
  | ofNat m => exact textWritable_repr m
  | negSucc m =>
    have h := textWritable_repr (m + 1)
    simp only [textWritable, Bool.and_eq_true, bne_iff_ne] at h ⊢
    exact ⟨fun he => List.cons_ne_nil '-' _ (congrArg String.data he), by
      simpa [toString, textSafe, isXmlChar] using h.2⟩

namespace VMXML

variable {D D' : Element}

theorem writable_vcpuUpdate (hd : writable D = true) (value : Option Int)
    (h : vcpuUpdate value D = .ok D') : writable D' = true := by
  cases value with
  | none => exact Descriptor.writable_del hd h
  | some v => exact Descriptor.writable_setText (by decide) hd (textWritable_toString v) h

theorem writable_writeCpuMode (hd : writable D = true) {mode : String}
    (hm : valueWritable mode = true) : writable (writeCpuMode D mode) = true := by
  unfold writeCpuMode
  split
  · exact writable_modifyChild (fun _ hx => writable_set hx (by decide) hm) hd _
  · exact writable_subElement hd (writable_leaf_single (by decide) (by decide) hm)

theorem writable_cpuModeUpdate (hd : writable D = true) {mode : String}
    (hm : valueWritable mode = true) (h : cpuModeUpdate mode D = .ok D') : writable D' = true := by
  cases hc : checkCpuMode mode <;>
    simp only [cpuModeUpdate, hc, bind, Except.bind, pure, Except.pure, Except.ok.injEq,
      reduceCtorEq] at h
  exact h ▸ writable_writeCpuMode hd hm

/-- Without the condition: `"custom\n"` passes the check, and the document it writes is not
writable; neither is the one a rename to `""` defines. -/
example : pyStrip "custom\n" ∈ cpuModes ∧ writable exampleDomain = true ∧
    writable (writeCpuMode exampleDomain "custom\n") = false ∧
    writable (renamed exampleDomain "" none) = false := by decide

theorem writable_primarySerialOrNew (hd : writable D = true) {p : Path}
    (h : primarySerialOrNew D = .ok (D', p)) : writable D' = true := by
  unfold primarySerialOrNew at h
  split at h
  · cases h; exact hd
  · cases h₁ : D.subElementAt ((D.find "devices").map ([·])) "serial" [("type", "pty")] with
    | error e => simp [h₁, bind, Except.bind] at h
    | ok v =>
      obtain ⟨D₁, s⟩ := v
      have hw₁ := Element.writable_of_subElementAt hd (by decide) h₁
      cases h₂ : D₁.subElementAt (some s) "target" [("port", "0")] with
      | error e => simp [h₁, h₂, bind, Except.bind] at h
      | ok v₂ =>
        simp only [h₁, h₂, bind, Except.bind, pure, Except.pure, Except.ok.injEq,
          Prod.mk.injEq] at h
        exact h.1 ▸ Element.writable_of_subElementAt hw₁ (by decide) h₂
  · cases h

theorem writable_editSerial (hd : writable D = true) {p : Path} {type port : String}
    {path : Option String} (ht : valueWritable type = true) (hp : valueWritable port = true)
    (hpath : path.all valueWritable = true) (h : editSerial D p type port path = .ok D') :
    writable D' = true := by
  have hw₁ : writable (D.modifyAt p (·.set "type" type)) = true :=
    writable_modifyAt (fun _ hx => writable_set hx (by decide) ht) p hd
  unfold editSerial at h
  cases hf : (D.modifyAt p (·.set "type" type)).findAt p "target" with
  | none => simp [hf, throw, throwThe, MonadExceptOf.throw] at h
  | some tg =>
    simp only [hf] at h
    have hw₂ : writable ((D.modifyAt p (·.set "type" type)).modifyAt tg (·.set "port" port)) =
        true := writable_modifyAt (fun _ hx => writable_set hx (by decide) hp) tg hw₁
    cases path with
    | some v =>
      simp only [Option.all_some] at hpath
      dsimp only at h
      split at h
      · simp only [pure, Except.pure, Except.ok.injEq] at h
        exact h ▸ writable_modifyAt (fun _ hx => writable_set hx (by decide) hpath) _ hw₂
      · simp [throw, throwThe, MonadExceptOf.throw] at h
    | none =>
      dsimp only at h
      split at h
      · cases h; exact Element.writable_of_removeAt hw₂ ‹_›
      · cases h; exact hw₂
      · cases h

/-- **The serial edit keeps a document writable**, for a type, a port and a path that read back
as attribute values. -/
theorem writable_primarySerialUpdate (hd : writable D = true) {type port : String}
    {path : Option String} (ht : valueWritable type = true) (hp : valueWritable port = true)
    (hpath : path.all valueWritable = true) (h : primarySerialUpdate type port path D = .ok D') :
    writable D' = true := by
  cases hs : primarySerialOrNew D with
  | error e => simp [primarySerialUpdate, hs, bind, Except.bind] at h
  | ok v =>
    simp only [primarySerialUpdate, hs, bind, Except.bind] at h
    exact writable_editSerial (writable_primarySerialOrNew hd hs) ht hp hpath h

/-- The document `vm_rename` defines, for a name and a uuid that read back as texts. -/
theorem writable_renamed (hd : writable D = true) {newName : String} {uuid : Option String}
    (hn : textWritable newName = true) (hu : uuid.all textWritable = true) :
    writable (renamed D newName uuid) = true := by
  have h₁ : writable (D.setChildText "name" newName) = true :=
    Element.writable_setChildText hd (by decide) hn
  cases uuid with
  | none => exact Element.writable_removeFirst h₁ "uuid"
  | some u => exact Element.writable_setChildText h₁ (by decide) hu

end VMXML

/-! ## 3. A store invariant, kept procedure by procedure -/

namespace Store

/-- Every definition in the store satisfies `I`. -/
def All (I : Element → Prop) (s : Store) : Prop := ∀ n D, s.defs n = some D → I D

variable {I : Element → Prop} {s : Store}

theorem All.erase (h : s.All I) (n : String) : (s.erase n).All I := fun m D hD => by
  rw [erase_defs] at hD
  split at hD
  · cases hD
  · exact h m D hD

theorem All.put (h : s.All I) {n : String} {d : Element} (hd : I d) (hn : domainName d = some n) :
    (s.put n d hn).All I := fun m D hD => by
  rw [put_defs] at hD
  split at hD
  · cases hD; exact hd
  · exact h m D hD

end Store

namespace VMXML

/-- **`x` keeps the store invariant `I`**: from a world whose definitions all satisfy `I`, and
whatever the tool answers, it leaves only definitions satisfying `I`, and returns only results
satisfying `Q`. -/
def Keeps {α : Type} (I : Element → Prop) (Q : α → Prop) (x : PyM α) : Prop :=
  ∀ w : World, w.store.All I → (after (x w)).store.All I ∧ ∀ a w', x w = .ok a w' → Q a

section Rules

variable {α β : Type} {I : Element → Prop} {Q : α → Prop} {R : β → Prop}

/-- A procedure that changes no definition keeps every invariant. -/
theorem keeps_of_touches_nil {x : PyM α} (hx : Touches [] Q x) : Keeps I Q x :=
  fun w hw => ⟨fun n D hD => hw n D (((hx w).2.1 n (List.not_mem_nil n)).symm.trans hD),
    (hx w).2.2.1⟩

theorem keeps_bind {x : PyM α} {f : α → PyM β} (hx : Keeps I Q x)
    (hf : ∀ a, Q a → Keeps I R (f a)) : Keeps I R (x >>= f) := by
  intro w hw
  obtain ⟨hxs, hxq⟩ := hx w hw
  cases h : x w with
  | ok a w₁ =>
    rw [h] at hxs
    simpa only [bind, EStateM.bind, h] using hf a (hxq a w₁ h) w₁ hxs
  | error e w₁ =>
    rw [h] at hxs
    simp only [bind, EStateM.bind, h]
    exact ⟨hxs, fun _ _ he => nomatch he⟩

/-- A dump returns a definition of the store, so one satisfying `I`, filed under its name. -/
theorem keeps_dumpxml (n : String) :
    Keeps I (fun D => I D ∧ domainName D = some n) (Virsh.dumpxml n) := by
  intro w hw
  rw [Virsh.dumpxml_run]
  cases w.replyAt 0 <;> cases hs : w.store.defs n <;>
    refine ⟨hw, ?_⟩ <;> rintro _ _ ⟨⟩
  exact ⟨hw n _ hs, w.store.filed n _ hs⟩

theorem keeps_removeDomain (n : String) : Keeps I (fun _ => True) (Virsh.removeDomain n) := by
  intro w hw
  rw [Virsh.removeDomain_run]
  cases w.replyAt 0
  · exact ⟨hw.erase n, fun _ _ _ => trivial⟩
  · exact ⟨hw, fun _ _ he => nomatch he⟩

theorem keeps_define {d : Element} (hd : I d) : Keeps I (fun _ => True) (Virsh.define d) := by
  intro w hw
  rw [Virsh.define_run]
  cases w.replyAt 0 with
  | fail => exact ⟨hw, fun _ _ he => nomatch he⟩
  | ok =>
    cases hn : domainName d with
    | none => rw [Store.define_eq_none hn]; exact ⟨hw, fun _ _ he => nomatch he⟩
    | some n => rw [Store.define_eq_some hn]; exact ⟨hw.put hd hn, fun _ _ _ => trivial⟩

/-- `undefine(); define()` of a document satisfying `I`. -/
theorem keeps_redefine {D : Element} (hD : I D) : Keeps I (fun _ => True) (redefine D) :=
  keeps_bind (keeps_bind (keeps_of_touches_nil (touches_ofExcept fun _ _ => trivial))
    fun _ _ => keeps_removeDomain _) fun _ _ => keeps_define hD

/-- **A setter keeps `I`** when its edit does, on the definitions of the name it is given. -/
theorem keeps_editDomain {n : String} {edit : Element → Except PyError Element}
    (hedit : ∀ D D', I D → domainName D = some n → edit D = .ok D' → I D') :
    Keeps I (fun _ => True) (editDomain n edit) :=
  keeps_bind (keeps_dumpxml n) fun _ hD =>
    keeps_bind (keeps_of_touches_nil (touches_ofExcept fun _ h => hedit _ _ hD.1 hD.2 h))
      fun _ hD' => keeps_redefine hD'

/-- **`vm_rename` keeps `I`** when the renamed document does, on every path: a failed dump or
`undefine` leaves the store, a failed `define` leaves it without the VM or rolls it back, and
success files the renamed document. -/
theorem keeps_vmRename {newName : String} {uuid : Option String}
    (hI : ∀ D, I D → I (renamed D newName uuid)) :
    Keeps I (fun _ => True) (vmRename newName uuid) := by
  intro w hw
  refine ⟨?_, fun _ _ _ => trivial⟩
  rw [vmRename_eq]
  cases hD : w.store.defs w.vm.name with
  | none =>
    obtain ⟨e, he⟩ := renameXml_undefined (w := { w with vm := { w.vm with alive := false } }) hD
      newName uuid
    rw [he]
    exact hw
  | some D =>
    rw [renameXml_run (w := { w with vm := { w.vm with alive := false } }) hD]
    simp only [World.replyAt_mk]
    split
    · exact hw
    · exact hw
    · exact hw.erase _
    · exact hw
    · exact (hw.erase _).put (hI D (hw _ D hD)) (domainName_renamed_of_filed hD newName uuid)

end Rules

/-! ## 4. Every session keeps every definition writable -/

/-- The values a call writes read back: a rename's name and uuid as texts, a serial's type,
port and path and a cpu mode as attribute values.  `set_vm_vcpus` writes an integer, which always
reads back, and the getters write nothing. -/
def Op.valuesWritable : Op → Bool
  | .vmRename newName uuid => textWritable newName && uuid.all textWritable
  | .setPrimarySerial _ type port path =>
    valueWritable type && valueWritable port && path.all valueWritable
  | .setCpuMode _ mode => valueWritable mode
  | .setVmVcpus _ _ | .getNumaParams _ | .getDiskBlk _ | .getDiskCount _ => true

/-- **One call**: whatever the tool answers, a call whose values read back leaves every
definition writable if it found them so. -/
theorem Op.keeps_writable (op : Op) (hop : op.valuesWritable = true) {w : World}
    (hw : w.store.All fun D => writable D = true) :
    (op.run w).store.All fun D => writable D = true := by
  cases op with
  | setVmVcpus n value =>
    exact (keeps_editDomain (fun _ _ hD _ h => writable_vcpuUpdate hD value h) w hw).1
  | getNumaParams n => exact (keeps_of_touches_nil (touches_getNumaParams n) w hw).1
  | vmRename newName uuid =>
    simp only [valuesWritable, Bool.and_eq_true] at hop
    exact (keeps_vmRename (fun _ hD => writable_renamed hD hop.1 hop.2) w hw).1
  | getDiskBlk n => exact (keeps_of_touches_nil (touches_getDiskBlk n) w hw).1
  | getDiskCount n => exact (keeps_of_touches_nil (touches_getDiskCount n) w hw).1
  | setPrimarySerial n type port path =>
    simp only [valuesWritable, Bool.and_eq_true] at hop
    exact (keeps_editDomain (fun _ _ hD _ h =>
      writable_primarySerialUpdate hD hop.1.1 hop.1.2 hop.2 h) w hw).1
  | setCpuMode n mode =>
    exact (keeps_editDomain (fun _ _ hD _ h => writable_cpuModeUpdate hD hop h) w hw).1

/-- **Every session keeps every definition writable**: from a hypervisor whose definitions are
all writable, whatever the tool answers and whichever calls raise, a session of calls whose
values read back leaves only writable definitions, each of which `Markup.parse_write` reads
back from its written text. -/
theorem session_writable (ops : List Op) (hops : ∀ op ∈ ops, op.valuesWritable = true)
    {w : World} (hw : w.store.All fun D => writable D = true) :
    (session ops w).store.All fun D => writable D = true := by
  induction ops generalizing w with
  | nil => exact hw
  | cons op ops ih =>
    exact ih (fun o ho => hops o (List.mem_cons_of_mem op ho))
      (op.keeps_writable (hops op (List.mem_cons_self op ops)) hw)

/-- The worked store's one definition is writable. -/
theorem exampleStore_writable : exampleStore.All fun D => writable D = true := fun n D h => by
  by_cases hn : n = "vm1"
  · simp only [exampleStore, hn, if_true, Option.some.injEq] at h
    subst h; decide
  · simp [exampleStore, hn] at h

theorem session_writable_vm1 :
    (∀ op ∈ [Op.setCpuMode "vm1" "host-model", .vmRename "vm2" none,
      .setPrimarySerial "vm2" "file" "1" (some "/tmp/console.log"), .setVmVcpus "vm2" (some (-4))],
      op.valuesWritable = true) ∧
    (exampleWorld []).store.All (fun D => writable D = true) ∧
    (session [.setCpuMode "vm1" "host-model", .vmRename "vm2" none,
      .setPrimarySerial "vm2" "file" "1" (some "/tmp/console.log"), .setVmVcpus "vm2" (some (-4))]
      (exampleWorld [.ok, .ok, .ok, .ok, .fail "no such domain"])).store.All
        (fun D => writable D = true) :=
  ⟨by decide, exampleStore_writable, session_writable _ (by decide) exampleStore_writable⟩

end VMXML

/-! ## 5. Sessions of feature calls on the instance's document -/

namespace VMCPUXML

/-- The feature names a call writes read back as attribute values. -/
def FeatureOp.valuesWritable : FeatureOp → Bool
  | .setFeature _ v | .addFeature v => valueWritable v
  | .getFeatureName _ | .removeFeature _ => true

/-- **One call** keeps the instance's document writable, whether it returns or raises. -/
theorem FeatureOp.writable_run (op : FeatureOp) (hop : op.valuesWritable = true) {d : Element}
    (hd : writable d = true) : writable (op.run d) = true := by
  cases op with
  | getFeatureName i => rw [run, after_getFeatureName]; exact hd
  | setFeature i v =>
    simp only [run, VMCPUXML.setFeature, bind, EStateM.bind, get, getThe, MonadStateOf.get,
      EStateM.get]
    cases checkIndex "Set" i (getFeatureList d).length with
    | error e => exact hd
    | ok u =>
      cases pyIndex (getFeatureList d) i with
      | error e => exact hd
      | ok node => exact writable_modifyAt (fun _ hx => writable_set hx (by decide) hop) node hd
  | removeFeature i =>
    simp only [run, VMCPUXML.removeFeature, bind, EStateM.bind, get, getThe, MonadStateOf.get,
      EStateM.get]
    cases checkIndex "Remove" i (getFeatureList d).length with
    | error e => exact hd
    | ok u =>
      cases pyIndex (getFeatureList d) i with
      | error e => exact hd
      | ok node =>
        cases d.find "cpu" with
        | none => exact hd
        | some c =>
          cases h : d.removeAt [c] (some node) <;>
            simp only [h, ofExcept, EStateM.bind, pure, EStateM.pure, set, MonadStateOf.set,
              EStateM.set, throw, throwThe, MonadExceptOf.throw, EStateM.throw, VMXML.after]
          · exact hd
          · exact Element.writable_of_removeAt hd h
  | addFeature v =>
    simp only [run, VMCPUXML.addFeature, bind, EStateM.bind, get, getThe, MonadStateOf.get,
      EStateM.get]
    cases h : d.subElementAt ((d.find "cpu").map ([·])) "feature" [("name", v)] <;>
      simp only [ofExcept, pure, EStateM.pure, set, MonadStateOf.set, EStateM.set, throw,
        throwThe, MonadExceptOf.throw, EStateM.throw, VMXML.after]
    · exact hd
    · exact Element.writable_of_subElementAt hd (writable_leaf_single (by decide) (by decide) hop) h

/-- **Every session of feature calls keeps the instance's document writable**, whatever the
calls and whichever of them raise, when the names they write read back. -/
theorem featureSession_writable (ops : List FeatureOp)
    (hops : ∀ op ∈ ops, op.valuesWritable = true) {d : Element} (hd : writable d = true) :
    writable (featureSession ops d) = true := by
  induction ops generalizing d with
  | nil => exact hd
  | cons op ops ih =>
    exact ih (fun o ho => hops o (List.mem_cons_of_mem op ho))
      (op.writable_run (hops op (List.mem_cons_self op ops)) hd)

theorem featureSession_writable_example :
    (∀ op ∈ [FeatureOp.addFeature "vmx", .setFeature 0 "ssse3", .removeFeature 7,
      .removeFeature 1], op.valuesWritable = true) ∧ writable exampleCpuDomain = true ∧
    writable (featureSession [.addFeature "vmx", .setFeature 0 "ssse3", .removeFeature 7,
      .removeFeature 1] exampleCpuDomain) = true :=
  ⟨by decide, by decide, featureSession_writable _ (by decide) (by decide)⟩

end VMCPUXML

/-! ## 6. The read-back of `set_primary_serial`

`set_primary_serial` alone among the setters replaces its document by the file it has just
written, and redefines what it reads back.  The other sections take that round trip as the
identity, as the spec's document store does; here it is modelled with `write` and `parse`.  On a
store of writable documents, and values that read back, it only sorts each element's attributes
(`editDomain_readBack`), so with a reliable tool the hypervisor after the call is the in-place
edit's with the edited document sorted (`setPrimarySerialReadBack_reliable`).  A tab in a value
is where the condition shows: the in-place edit keeps it, the read-back turns it into a space. -/

namespace VMXML

/-- `xmltreefile.write()` then `vmxml.set_xml(xmltreefile.name)`: the document as `ElementTree`
writes it, parsed back from the file. -/
def readBack (vmxml : Element) : Except PyError Element := parse ⟨write vmxml⟩

/-- `VMXML.set_primary_serial(vm_name, type, port, path=None)` with its write and read-back: the
document read back from the file is the one redefined. -/
def setPrimarySerialReadBack (vmName type port : String) (path : Option String) : PyM Unit :=
  editDomain vmName fun vmxml => primarySerialUpdate type port path vmxml >>= readBack

/-- Sorting the attributes keeps the name libvirt files a definition under. -/
theorem domainName_sortTree : ∀ d : Element, domainName (sortTree d) = domainName d
  | ⟨tag, attrib, text, children⟩ => by
    have hname : ((·.tag == "name") ∘ sortTree) = fun x : Element => x.tag == "name" :=
      funext fun e => congrArg (· == "name") (tag_sortTree e)
    simp only [domainName, sortTree, sortForest_eq_map, List.find?_map, hname]
    cases children.find? (·.tag == "name") <;> simp

variable {w : World} {n : String}

set_option maxRecDepth 4000 in
/-- Without the condition: a tab in the type reads back as a space, where the in-place edit
keeps it. -/
example : (after (setPrimarySerial "vm1" "a\tb" "0" none (exampleWorld []))).store.defs "vm1" =
      some ⟨"domain", [("type", "kvm")], none,
        [⟨"name", [], some "vm1", []⟩, ⟨"uuid", [], some "u1", []⟩,
         ⟨"devices", [], none,
           [⟨"disk", [("type", "file")], none, [⟨"target", [("dev", "vda")], none, []⟩]⟩,
            ⟨"serial", [("type", "a\tb")], none, [⟨"target", [("port", "0")], none, []⟩]⟩]⟩]⟩ ∧
    (after (setPrimarySerialReadBack "vm1" "a\tb" "0" none (exampleWorld []))).store.defs "vm1" =
      some ⟨"domain", [("type", "kvm")], none,
        [⟨"name", [], some "vm1", []⟩, ⟨"uuid", [], some "u1", []⟩,
         ⟨"devices", [], none,
           [⟨"disk", [("type", "file")], none, [⟨"target", [("dev", "vda")], none, []⟩]⟩,
            ⟨"serial", [("type", "a b")], none, [⟨"target", [("port", "0")], none, []⟩]⟩]⟩]⟩ := by
  decide

end VMXML

end LibvirtXml
