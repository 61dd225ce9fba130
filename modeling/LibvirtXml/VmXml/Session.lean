/-
# Sessions: what a sequence of façade calls can change

A test drives the hypervisor through the façade's calls one after another: it sets a domain's
vCPUs, its cpu mode or its primary serial, renames the test VM, and reads NUMA parameters and
disks.  Each call may fail at any of its `virsh` calls, and the test may catch what it raises
and go on.  This module says, for every such sequence and every pattern of the tool's answers,
which definitions can have changed.

* **One call** (`Op.run_step`).  Each operation's frame is proved beside its definition, with the
  frame judgement of `VmXml/Basic.lean`: a setter touches the definition filed under the name it
  is given and no other (`touches_setVmVcpus`, `touches_setCpuMode`, `touches_setPrimarySerial`),
  the getters touch none (`touches_getNumaParams`, `touches_getDiskBlk`, `touches_getDiskCount`),
  and `vm_rename` touches the VM's definition and the new name's, leaving the VM object with its
  old name or the new one (`vmRename_after`).  What makes the setters' frames hold is that every
  edit keeps the document's name, so `define` files it where `undefine` removed it.
* **A whole session** (`session_frame`), by induction over the calls: a definition that no call
  of the session may change (`Op.changes`: the name a setter is given, the new name of a
  rename), and that is not the test VM's at the start, is never changed.  The VM's name can move
  only to a name a rename was given, which is why the start's name suffices.
* **What the façade is for** (`Hypervisor`, `Op.intended`): a setter replaces the definition it
  is given by its edit, in place; a rename moves the VM's definition to the new name.  When the
  tool answers every call with success, a session of the code leaves the hypervisor exactly as
  those purposes, applied call after call, say (`session_refines`), by induction from one call
  (`Op.run_reliable`): the setters share one shape, `editDomain`, whose round trip through the
  tool is the in-place edit (`editDomain_reliable`).  The assumption is needed: a `define` that
  fails after `undefine` leaves the domain undefined.
* **Calling twice** (`session_repeat`): under the same tool, every call but the deleting forms,
  made twice, leaves the hypervisor as made once, because each edit finds its own values in
  place the second time (`Op.intended_intended`).
* **Order** (`session_perm`): under the same tool, a session of setters and getters in which no
  two calls may change one domain ends the same in every order of its calls, because the purposes
  of two such calls commute (`Op.intended_comm`).
* **Whatever the tool answers** (`session_allowed`): every call of every session did nothing, did
  what it is for, or, after a `define` that failed once `undefine` had succeeded, left its domain
  undefined (`Op.Allowed`, `Op.run_allowed`); nothing else can happen to the hypervisor.
-/
import LibvirtXml.VmXml.Rename
import LibvirtXml.VmXml.CpuMode
import LibvirtXml.VmXml.Devices
import Mathlib.Data.List.Pairwise

namespace LibvirtXml

namespace VMXML

/-! ## 1. The calls -/

/-- The façade's calls on the hypervisor's definitions, with their arguments. -/
inductive Op where
  | setVmVcpus (vmName : String) (value : Option Int)
  | getNumaParams (vmName : String)
  | vmRename (newName : String) (uuid : Option String)
  | getDiskBlk (vmName : String)
  | getDiskCount (vmName : String)
  | setPrimarySerial (vmName type port : String) (path : Option String)
  | setCpuMode (vmName mode : String)
deriving Repr, DecidableEq

namespace Op

/-- The world a call leaves, whether it returned or raised. -/
def run : Op → World → World
  | setVmVcpus n value, w => after (VMXML.setVmVcpus n value w)
  | getNumaParams n, w => after (VMXML.getNumaParams n w)
  | vmRename newName uuid, w => after (VMXML.vmRename newName uuid w)
  | getDiskBlk n, w => after (VMXML.getDiskBlk n w)
  | getDiskCount n, w => after (VMXML.getDiskCount n w)
  | setPrimarySerial n type port path, w => after (VMXML.setPrimarySerial n type port path w)
  | setCpuMode n mode, w => after (VMXML.setCpuMode n mode w)

/-- The names whose definitions a call is allowed to change: the domain a setter is given, the
new name of a rename, and nothing for a getter. -/
def changes : Op → List String
  | setVmVcpus n _ | setPrimarySerial n _ _ _ | setCpuMode n _ => [n]
  | vmRename newName _ => [newName]
  | getNumaParams _ | getDiskBlk _ | getDiskCount _ => []

/-- **One call**: a definition that the call may not change, and that is not the VM's, keeps
its entry, and the VM's name stays or becomes a name the call was given. -/
theorem run_step (op : Op) (w : World) :
    ((op.run w).vm.name = w.vm.name ∨ (op.run w).vm.name ∈ op.changes) ∧
      ∀ m, m ∉ op.changes → m ≠ w.vm.name → (op.run w).store.defs m = w.store.defs m := by
  -- every operation but the rename keeps the VM object and touches only what it names
  have hframe : ∀ {α : Type} {N : List String} {x : PyM α}, Touches N (fun _ => True) x →
      N ⊆ op.changes →
      ((after (x w)).vm.name = w.vm.name ∨ (after (x w)).vm.name ∈ op.changes) ∧
        ∀ m, m ∉ op.changes → m ≠ w.vm.name →
          (after (x w)).store.defs m = w.store.defs m :=
    fun hx hN =>
      ⟨.inl (congrArg Vm.name (hx w).1), fun m hm _ => (hx w).2.1 m fun h => hm (hN h)⟩
  cases op with
  | setVmVcpus n value => exact hframe (touches_setVmVcpus n value) (List.Subset.refl _)
  | getNumaParams n => exact hframe (touches_getNumaParams n) (List.nil_subset _)
  | vmRename newName uuid =>
    obtain ⟨hv, hs⟩ := vmRename_after newName uuid w
    exact ⟨hv.imp_right fun h => by simp [changes, run, h],
      fun m hm hw => hs m hw fun h => hm (by simp [changes, h])⟩
  | getDiskBlk n => exact hframe (touches_getDiskBlk n) (List.nil_subset _)
  | getDiskCount n => exact hframe (touches_getDiskCount n) (List.nil_subset _)
  | setPrimarySerial n type port path =>
    exact hframe (touches_setPrimarySerial n type port path) (List.Subset.refl _)
  | setCpuMode n mode => exact hframe (touches_setCpuMode n mode) (List.Subset.refl _)

end Op

/-! ## 2. Sessions -/

/-- A session: the calls made one after another, each from the world the previous one left, as
in a test that catches what each call raises and goes on.  A test that stops at the first
exception runs a prefix of its session. -/
def session : List Op → World → World
  | [], w => w
  | op :: ops, w => session ops (op.run w)

/-- **A session changes no definition that none of its calls may change**, other than the test
VM's own: whatever the tool answers, and whether each call returns or raises, every other domain
keeps its definition. -/
theorem session_frame (ops : List Op) (w : World) {m : String}
    (hm : ∀ op ∈ ops, m ∉ op.changes) (hv : m ≠ w.vm.name) :
    (session ops w).store.defs m = w.store.defs m := by
  induction ops generalizing w with
  | nil => rfl
  | cons op ops ih =>
    obtain ⟨hvm, hstore⟩ := op.run_step w
    have hm₀ : m ∉ op.changes := hm op (List.mem_cons_self op ops)
    -- the VM's next name is its old one or a name this call may change, so not `m`
    have hv' : m ≠ (op.run w).vm.name := by
      rcases hvm with h | h
      · rwa [h]
      · exact fun e => hm₀ (e ▸ h)
    rw [session, ih (op.run w) (fun o ho => hm o (List.mem_cons_of_mem op ho)) hv',
      hstore m hm₀ hv]

theorem session_frame_vm2 :
    (∀ op ∈ [Op.setCpuMode "vm1" "custom", Op.vmRename "vm3" none], "vm2" ∉ op.changes) ∧
      "vm2" ≠ (exampleWorld []).vm.name ∧
      (session [Op.setCpuMode "vm1" "custom", Op.vmRename "vm3" none]
        (exampleWorld [])).store.defs "vm2" = (exampleWorld []).store.defs "vm2" :=
  ⟨by decide, by decide, session_frame _ _ (by decide) (by decide)⟩

/-! ## 3. What the façade is for

The façade's purpose, stated without the tool: a setter replaces the definition it is given by
its edit, atomically, and a rename moves the VM's definition to the new name.  The code reaches
that state by going round the tool (dump, `undefine`, edit, `define`); when the tool answers
every call with success, it reaches exactly that state, call after call (`session_refines`).
Without that assumption it need not: a `define` that fails after `undefine` leaves the domain
undefined (`redefine_run`). -/

/-- The hypervisor as the façade means to change it: the definitions by name, and the name of
the test VM. -/
@[ext] structure Hypervisor where
  defs : String → Option Element
  vmName : String

namespace Hypervisor

/-- **A setter's purpose**: the definition of `n`, when there is one and `f` accepts it, replaced
by its edit; otherwise nothing changes. -/
def edit (h : Hypervisor) (n : String) (f : Element → Option Element) : Hypervisor :=
  match h.defs n >>= f with
  | some D' => { h with defs := fun m => if m = n then some D' else h.defs m }
  | none => h

/-- **A rename's purpose**: the VM's definition, edited by `f`, moved to `newName`, and the VM
known by the new name. -/
def move (h : Hypervisor) (newName : String) (f : Element → Element) : Hypervisor :=
  match h.defs h.vmName with
  | some D => ⟨fun m => if m = newName then some (f D) else if m = h.vmName then none
      else h.defs m, newName⟩
  | none => h

theorem edit_congr {h : Hypervisor} {n : String} {f g : Element → Option Element}
    (hfg : ∀ D, h.defs n = some D → f D = g D) : h.edit n f = h.edit n g := by
  unfold edit
  cases hD : h.defs n with
  | none => rfl
  | some D => simp only [Option.bind_eq_bind, Option.some_bind, hfg D hD]

end Hypervisor

/-- The hypervisor a world shows. -/
def view (w : World) : Hypervisor := ⟨w.store.defs, w.vm.name⟩

/-- What each call is meant to do. -/
def Op.intended : Op → Hypervisor → Hypervisor
  | .setVmVcpus n value, h => h.edit n fun D => some (vcpuEdit value D)
  | .setCpuMode n mode, h =>
    h.edit n fun D => if pyStrip mode ∈ cpuModes then some (writeCpuMode D mode) else none
  | .setPrimarySerial n type port path, h =>
    h.edit n fun D => (primarySerialUpdate type port path D).toOption
  | .vmRename newName uuid, h => h.move newName (renamed · newName uuid)
  | .getNumaParams _, h | .getDiskBlk _, h | .getDiskCount _, h => h

/-- The calls' purposes, one after another. -/
def intendedSession : List Op → Hypervisor → Hypervisor
  | [], h => h
  | op :: ops, h => intendedSession ops (op.intended h)

/-! ## 4. The code refines the purpose under a reliable tool -/

/-- On the definitions a store holds, the purpose of `set_vm_vcpus` is the in-place edit of its
update. -/
theorem Op.intended_setVmVcpus (n : String) (value : Option Int) (w : World) :
    (Op.setVmVcpus n value).intended (view w) =
      (view w).edit n fun D => (vcpuUpdate value D).toOption :=
  Hypervisor.edit_congr fun D hD => by simp [vcpuUpdate_eq (tag_of_filed hD), Except.toOption]

/-- The purpose of `set_cpu_mode` is the in-place edit of its update. -/
theorem Op.intended_setCpuMode (n mode : String) (w : World) :
    (Op.setCpuMode n mode).intended (view w) =
      (view w).edit n fun D => (cpuModeUpdate mode D).toOption :=
  Hypervisor.edit_congr fun D _ => by
    by_cases hm : pyStrip mode ∈ cpuModes <;>
      simp [cpuModeUpdate, checkCpuMode, hm, bind, Except.bind, pure, Except.pure,
        Except.toOption]

/-- A call that touches nothing is seen to do nothing. -/
theorem view_of_touches_nil {α : Type} {x : PyM α} (hx : Touches [] (fun _ => True) x)
    (w : World) : view (after (x w)) = view w :=
  Hypervisor.ext (funext fun m => (hx w).2.1 m (List.not_mem_nil m)) (congrArg Vm.name (hx w).1)

section Reliable

variable {w : World} (hr : w.Reliable)
include hr

/-- Round the tool and back: with every answer a success, `editDomain` is the in-place edit. -/
theorem editDomain_reliable {n : String} {edit : Element → Except PyError Element}
    (hedit : KeepsName n edit) :
    view (after (editDomain n edit w)) = (view w).edit n fun D => (edit D).toOption := by
  simp only [editDomain, bind, EStateM.bind, newFromDumpxml, Virsh.dumpxml_run, hr 0]
  cases hD : w.store.defs n with
  | none => simp [after, view, Hypervisor.edit, hD]
  | some D =>
    cases he : edit D with
    | error e => simp [after, view, Hypervisor.edit, hD, he, ofExcept, throw, throwThe,
        MonadExceptOf.throw, EStateM.throw, Except.toOption]
    | ok D' =>
      simp only [he, ofExcept, pure, EStateM.pure,
        redefine_run (hedit D D' (w.store.filed n D hD) he), World.replyAt_next, hr 1, hr 2]
      refine Hypervisor.ext (funext fun m => ?_) ?_
      · by_cases hm : m = n <;> simp [after, view, Hypervisor.edit, hD, he, Except.toOption, hm]
      · simp [after, view, Hypervisor.edit, hD, he, Except.toOption]

/-- With every answer a success, `vm_rename` moves the definition. -/
theorem vmRename_reliable (newName : String) (uuid : Option String) :
    view (after (vmRename newName uuid w)) = (view w).move newName (renamed · newName uuid) ∧
      (after (vmRename newName uuid w)).Reliable := by
  rw [vmRename_eq]
  cases hD : w.store.defs w.vm.name with
  | none =>
    obtain ⟨e, he⟩ :=
      renameXml_undefined (w := { w with vm := { w.vm with alive := false } }) hD newName uuid
    rw [he]
    exact ⟨by simp [after, view, Hypervisor.move, hD],
      fun k => by simpa [after] using hr (k + 1)⟩
  | some D =>
    rw [renameXml_run (w := { w with vm := { w.vm with alive := false } }) hD]
    simp only [World.replyAt_mk, hr 0, hr 1, hr 2]
    refine ⟨Hypervisor.ext (funext fun m => ?_) ?_, fun k => by simpa [after] using hr (k + 3)⟩
    · simp [after, view, Hypervisor.move, hD]
    · simp [after, view, Hypervisor.move, hD]

/-- **One call does what it is for**, and the tool stays reliable. -/
theorem Op.run_reliable (op : Op) :
    view (op.run w) = op.intended (view w) ∧ (op.run w).Reliable := by
  cases op with
  | setVmVcpus n value =>
    exact ⟨(editDomain_reliable hr (keepsName_vcpuUpdate n value)).trans
      (Op.intended_setVmVcpus n value w).symm, (touches_setVmVcpus n value w).2.2.2 hr⟩
  | getNumaParams n =>
    exact ⟨view_of_touches_nil (touches_getNumaParams n) w,
      (touches_getNumaParams n w).2.2.2 hr⟩
  | vmRename newName uuid => exact vmRename_reliable hr newName uuid
  | getDiskBlk n =>
    exact ⟨view_of_touches_nil (touches_getDiskBlk n) w, (touches_getDiskBlk n w).2.2.2 hr⟩
  | getDiskCount n =>
    exact ⟨view_of_touches_nil (touches_getDiskCount n) w, (touches_getDiskCount n w).2.2.2 hr⟩
  | setPrimarySerial n type port path =>
    exact ⟨editDomain_reliable hr fun _ _ hD h => (primarySerialUpdate_domainName h).trans hD,
      (touches_setPrimarySerial n type port path w).2.2.2 hr⟩
  | setCpuMode n mode =>
    exact ⟨(editDomain_reliable hr (keepsName_cpuModeUpdate n mode)).trans
      (Op.intended_setCpuMode n mode w).symm, (touches_setCpuMode n mode w).2.2.2 hr⟩

end Reliable

/-- **A session keeps what each of its calls keeps**: a relation between the tool's world and
the hypervisor it stands for that every call carries over, the call run on one side and its
purpose applied on the other, holds after the whole session. -/
theorem session_simulates {R : World → Hypervisor → Prop} {ops : List Op}
    (hstep : ∀ op ∈ ops, ∀ w h, R w h → R (op.run w) (op.intended h)) {w : World}
    {h : Hypervisor} (hR : R w h) : R (session ops w) (intendedSession ops h) := by
  induction ops generalizing w h with
  | nil => exact hR
  | cons op ops ih =>
    exact ih (fun o ho => hstep o (List.mem_cons_of_mem op ho))
      (hstep op (List.mem_cons_self op ops) w h hR)

/-- **The façade does what it is for, call after call, when the tool never fails**: a session
run against a tool that answers every call with success leaves the hypervisor exactly as the
calls' purposes, applied one after another, say. -/
theorem session_refines (ops : List Op) {w : World} (hr : w.Reliable) :
    view (session ops w) = intendedSession ops (view w) :=
  (session_simulates (R := fun w h => view w = h ∧ w.Reliable)
    (by rintro op - w _ ⟨rfl, hr⟩; exact op.run_reliable hr) ⟨rfl, hr⟩).1

theorem session_refines_vm1 : (exampleWorld []).Reliable ∧
    view (session [Op.setVmVcpus "vm1" (some 2), Op.vmRename "vm2" none] (exampleWorld [])) =
      intendedSession [Op.setVmVcpus "vm1" (some 2), Op.vmRename "vm2" none]
        (view (exampleWorld [])) :=
  have hr : (exampleWorld []).Reliable := fun k => by simp [World.replyAt, exampleWorld]
  ⟨hr, session_refines _ hr⟩

/-! ## 5. Calling twice

`set_vm_vcpus(n, v)`, `set_cpu_mode(n, mode)`, `set_primary_serial(n, type, port, path)` with a
path, and `vm_rename(vm, new_name, uuid)` with a uuid write what they are given over what is
there, so a second call finds its values in place: under a tool that never fails, calling one
twice leaves the hypervisor as calling it once (`session_repeat`).  The deleting forms
(`value=None`, `path=None`, `uuid=None`) remove the first element with the tag, and a second
call removes the next one when there are two. -/

namespace Hypervisor

theorem edit_edit {h : Hypervisor} {n : String} {f : Element → Option Element}
    (hf : ∀ D D', f D = some D' → f D' = some D') : (h.edit n f).edit n f = h.edit n f := by
  cases hD : h.defs n with
  | none => simp [edit, hD]
  | some D =>
    cases hfD : f D with
    | none => simp [edit, hD, hfD]
    | some D' =>
      simp only [edit, hD, hfD, Option.bind_eq_bind, Option.some_bind, if_true, hf D D' hfD]
      congr 1
      funext m
      split <;> rfl

theorem move_move {h : Hypervisor} {newName : String} {f : Element → Element}
    (hf : ∀ D, h.defs h.vmName = some D → f (f D) = f D) :
    (h.move newName f).move newName f = h.move newName f := by
  cases hD : h.defs h.vmName with
  | none => simp [move, hD]
  | some D =>
    simp only [move, hD, if_true, hf D hD]
    congr 1
    funext m
    split <;> simp_all

end Hypervisor

/-- The calls a second time finds in place: all but the deleting forms. -/
def Op.overwrites : Op → Bool
  | .setVmVcpus _ value => value.isSome
  | .setPrimarySerial _ _ _ path => path.isSome
  | .vmRename _ uuid => uuid.isSome
  | .setCpuMode _ _ | .getNumaParams _ | .getDiskBlk _ | .getDiskCount _ => true

/-- What each such call is for, done twice, is done once, on definitions of `domain`s. -/
theorem Op.intended_intended (op : Op) (hop : op.overwrites = true) {h : Hypervisor}
    (hfiled : ∀ n D, h.defs n = some D → D.tag = "domain") :
    op.intended (op.intended h) = op.intended h := by
  cases op with
  | setVmVcpus n value =>
    obtain ⟨v, rfl⟩ := Option.isSome_iff_exists.mp hop
    exact Hypervisor.edit_edit fun D D' hD => by
      cases hD
      exact congrArg some (vcpuEdit_vcpuEdit v D)
  | setCpuMode n mode =>
    refine Hypervisor.edit_edit fun D D' hD => ?_
    by_cases hm : pyStrip mode ∈ cpuModes
    · simp only [hm, if_true, Option.some.injEq] at hD ⊢
      rw [← hD, writeCpuMode_writeCpuMode]
    · simp [hm] at hD
  | setPrimarySerial n type port path =>
    obtain ⟨v, rfl⟩ := Option.isSome_iff_exists.mp hop
    refine Hypervisor.edit_edit fun D D' hD => ?_
    have hok : primarySerialUpdate type port (some v) D = .ok D' := by
      cases hp : primarySerialUpdate type port (some v) D <;>
        simp_all [Except.toOption]
    simp [primarySerialUpdate_primarySerialUpdate hok, Except.toOption]
  | vmRename newName uuid =>
    obtain ⟨u, rfl⟩ := Option.isSome_iff_exists.mp hop
    exact Hypervisor.move_move fun D hD => renamed_renamed (hfiled _ D hD) newName u
  | getNumaParams _ | getDiskBlk _ | getDiskCount _ => rfl

/-- **Calling twice is calling once**: under a tool that answers every call with success, any
call but the deleting forms, made a second time, changes no definition and not the VM's name. -/
theorem session_repeat (op : Op) (hop : op.overwrites = true) {w : World} (hr : w.Reliable) :
    view (session [op, op] w) = view (session [op] w) := by
  obtain ⟨h₁, hr₁⟩ := op.run_reliable hr
  obtain ⟨h₂, -⟩ := op.run_reliable hr₁
  simp only [session]
  rw [h₂, h₁, Op.intended_intended op hop fun _ _ hD => tag_of_filed hD]

theorem session_repeat_vm1 :
    (Op.vmRename "vm2" (some "u2")).overwrites = true ∧ (exampleWorld []).Reliable ∧
      view (session [.vmRename "vm2" (some "u2"), .vmRename "vm2" (some "u2")] (exampleWorld [])) =
        view (session [.vmRename "vm2" (some "u2")] (exampleWorld [])) :=
  have hr : (exampleWorld []).Reliable := fun k => by simp [World.replyAt, exampleWorld]
  ⟨rfl, hr, session_repeat (.vmRename "vm2" (some "u2")) rfl hr⟩

/-- The deleting form is not repeatable: with two `vcpu` elements, a second `del vmxml.vcpu`
removes the second. -/
example : vcpuEdit none (vcpuEdit none ⟨"domain", [], none,
      [⟨"vcpu", [], some "1", []⟩, ⟨"vcpu", [], some "2", []⟩]⟩) ≠
    vcpuEdit none ⟨"domain", [], none, [⟨"vcpu", [], some "1", []⟩, ⟨"vcpu", [], some "2", []⟩]⟩ := by
  decide

/-! ## 6. Calls on distinct domains commute

A setter's purpose changes only the definition it is given, and a getter's changes nothing, so
two such calls on distinct domains commute (`Op.intended_comm`).  Under a tool that never fails,
a session of them leaves the hypervisor the same whatever the order of its calls
(`session_perm`).  Renames are left out: each moves the test VM, so two of them do not commute. -/

namespace Hypervisor

theorem edit_defs (h : Hypervisor) (n : String) (f : Element → Option Element) (m : String) :
    (h.edit n f).defs m = if m = n then (h.defs n >>= f).or (h.defs n) else h.defs m := by
  unfold edit
  split <;> rename_i heq <;> by_cases hm : m = n <;> simp [hm, heq]

@[simp] theorem edit_vmName (h : Hypervisor) (n : String) (f : Element → Option Element) :
    (h.edit n f).vmName = h.vmName := by
  unfold edit; split <;> rfl

/-- Edits of two distinct definitions commute. -/
theorem edit_comm {h : Hypervisor} {n m : String} {f g : Element → Option Element}
    (hnm : n ≠ m) : (h.edit n f).edit m g = (h.edit m g).edit n f := by
  ext : 1
  · funext k
    by_cases hk : k = n
    · subst hk; simp [edit_defs, hnm]
    · by_cases hk' : k = m
      · subst hk'; simp [edit_defs, hk, Ne.symm hnm]
      · simp [edit_defs, hk, hk']
  · simp

end Hypervisor

/-- Whether a call renames the test VM. -/
def Op.isRename : Op → Bool
  | .vmRename _ _ => true
  | .setVmVcpus _ _ | .setPrimarySerial _ _ _ _ | .setCpuMode _ _ | .getNumaParams _
  | .getDiskBlk _ | .getDiskCount _ => false

/-- A call other than a rename is meant to do nothing, or to edit the one domain it may change. -/
theorem Op.intended_of_not_rename (op : Op) (hop : op.isRename = false) :
    (∀ h, op.intended h = h) ∨ ∃ n f, op.changes = [n] ∧ ∀ h, op.intended h = h.edit n f := by
  cases op with
  | vmRename => cases hop
  | setVmVcpus n _ | setPrimarySerial n _ _ _ | setCpuMode n _ =>
    exact .inr ⟨n, _, rfl, fun _ => rfl⟩
  | getNumaParams _ | getDiskBlk _ | getDiskCount _ => exact .inl fun _ => rfl

/-- Two calls other than renames, which may change no common domain, commute. -/
theorem Op.intended_comm {op₁ op₂ : Op} (h₁ : op₁.isRename = false) (h₂ : op₂.isRename = false)
    (hd : op₁.changes.Disjoint op₂.changes) (h : Hypervisor) :
    op₂.intended (op₁.intended h) = op₁.intended (op₂.intended h) := by
  rcases op₁.intended_of_not_rename h₁ with e₁ | ⟨n, f, c₁, e₁⟩ <;>
    rcases op₂.intended_of_not_rename h₂ with e₂ | ⟨m, g, c₂, e₂⟩ <;> simp only [e₁, e₂]
  rw [c₁, c₂] at hd
  exact Hypervisor.edit_comm fun e => by simp [e] at hd

theorem intendedSession_eq_foldl (ops : List Op) (h : Hypervisor) :
    intendedSession ops h = ops.foldl (fun h op => op.intended h) h := by
  induction ops generalizing h with
  | nil => rfl
  | cons op ops ih => exact ih _

/-- **Calls on distinct domains can be made in any order**: under a tool that answers every call
with success, a session of setters and getters in which no two calls may change one domain
leaves the hypervisor the same in every order of its calls. -/
theorem session_perm {ops ops' : List Op} (hp : ops.Perm ops')
    (hren : ∀ op ∈ ops, op.isRename = false) (hnd : (ops.flatMap Op.changes).Nodup)
    {w : World} (hr : w.Reliable) : view (session ops w) = view (session ops' w) := by
  have hdis := (List.nodup_flatMap.mp hnd).2
  -- both orders run as their purposes say
  have hview : ∀ l : List Op, view (session l w) = intendedSession l (view w) := fun _ =>
    (session_simulates (R := fun w h => view w = h ∧ w.Reliable)
      (by rintro op - w _ ⟨rfl, hr⟩; exact op.run_reliable hr) ⟨rfl, hr⟩).1
  rw [hview, hview, intendedSession_eq_foldl, intendedSession_eq_foldl]
  refine hp.foldl_eq' (fun x hx y hy z => ?_) _
  by_cases hxy : x = y
  · rw [hxy]
  · exact Op.intended_comm (hren x hx) (hren y hy)
      (hdis.forall (fun _ _ h => List.Disjoint.symm h) hx hy hxy) z

theorem session_perm_vm1 :
    [Op.setVmVcpus "vm1" (some 2), .getDiskCount "vm1", .setCpuMode "vm2" "custom"].Perm
      [.setCpuMode "vm2" "custom", .setVmVcpus "vm1" (some 2), .getDiskCount "vm1"] ∧
    (∀ op ∈ [Op.setVmVcpus "vm1" (some 2), .getDiskCount "vm1", .setCpuMode "vm2" "custom"],
      op.isRename = false) ∧
    ([Op.setVmVcpus "vm1" (some 2), .getDiskCount "vm1", .setCpuMode "vm2" "custom"].flatMap
      Op.changes).Nodup ∧ (exampleWorld []).Reliable ∧
    view (session [.setVmVcpus "vm1" (some 2), .getDiskCount "vm1", .setCpuMode "vm2" "custom"]
        (exampleWorld [])) =
      view (session [.setCpuMode "vm2" "custom", .setVmVcpus "vm1" (some 2), .getDiskCount "vm1"]
        (exampleWorld [])) :=
  have hr : (exampleWorld []).Reliable := fun k => by simp [World.replyAt, exampleWorld]
  ⟨by decide, by decide, by decide, hr, session_perm (by decide) (by decide) (by decide) hr⟩

/-! ## 7. Whatever the tool answers

With a tool that may fail, a call has three possible effects on the hypervisor: none (it failed
before changing anything, or it rolled back), its purpose, or, when a `define` fails after its
`undefine` succeeded, the loss of its domain (`Op.Allowed`).  Every run of every call has one of
these effects, from every world (`Op.run_allowed`), so a whole session is a sequence of them
(`session_allowed`): no pattern of failures leaves a definition half edited, edits a domain the
call was not given, or moves the VM anywhere but to the name a rename was given. -/

namespace Hypervisor

/-- The definition of `n` removed: what is left when `define` fails after `undefine`. -/
def erase (h : Hypervisor) (n : String) : Hypervisor :=
  { h with defs := fun m => if m = n then none else h.defs m }

end Hypervisor

/-- The domain a call loses when its `define` fails after its `undefine` succeeded: the one a
setter is given, the VM's for a rename, and none for a getter. -/
def Op.loses : Op → Hypervisor → Option String
  | .setVmVcpus n _, _ | .setPrimarySerial n _ _ _, _ | .setCpuMode n _, _ => some n
  | .vmRename _ _, h => some h.vmName
  | .getNumaParams _, _ | .getDiskBlk _, _ | .getDiskCount _, _ => none

/-- **What a call may do when the tool can fail.** -/
inductive Op.Allowed (op : Op) (h : Hypervisor) : Hypervisor → Prop
  /-- Nothing: a call failed before any change, or rolled back. -/
  | unchanged : op.Allowed h h
  /-- What the call is for. -/
  | intended : op.Allowed h (op.intended h)
  /-- A `define` failed after its `undefine`: the domain is left undefined. -/
  | lost {n : String} : op.loses h = some n → op.Allowed h (h.erase n)

/-- The hypervisors a session may leave when the tool can fail: one allowed effect per call. -/
inductive SessionAllowed : List Op → Hypervisor → Hypervisor → Prop
  | nil (h : Hypervisor) : SessionAllowed [] h h
  | cons {op : Op} {ops : List Op} {h h₁ h' : Hypervisor} :
      op.Allowed h h₁ → SessionAllowed ops h₁ h' → SessionAllowed (op :: ops) h h'

/-- A setter, from any world: `editDomain` fails before any change, does what it is for, or
loses its domain. -/
theorem editDomain_allowed {n : String} {edit : Element → Except PyError Element}
    (hedit : KeepsName n edit) (w : World) :
    view (after (editDomain n edit w)) = view w ∨
      view (after (editDomain n edit w)) = (view w).edit n (fun D => (edit D).toOption) ∨
      view (after (editDomain n edit w)) = (view w).erase n := by
  simp only [editDomain, bind, EStateM.bind, newFromDumpxml, Virsh.dumpxml_run]
  cases h0 : w.replyAt 0 with
  | fail d => exact .inl rfl
  | ok =>
    cases hD : w.store.defs n with
    | none => exact .inl rfl
    | some D =>
      cases he : edit D with
      | error e =>
        exact .inl (by simp [after, view, he, ofExcept, throw, throwThe, MonadExceptOf.throw,
          EStateM.throw])
      | ok D' =>
        simp only [he, ofExcept, pure, EStateM.pure,
          redefine_run (hedit D D' (w.store.filed n D hD) he), World.replyAt_next]
        cases h1 : w.replyAt 1 with
        | fail d => exact .inl rfl
        | ok =>
          cases h2 : w.replyAt 2 with
          | fail d =>
            refine .inr (.inr (Hypervisor.ext (funext fun m => ?_) rfl))
            by_cases hm : m = n <;> simp [after, view, Hypervisor.erase, hm]
          | ok =>
            refine .inr (.inl (Hypervisor.ext (funext fun m => ?_) ?_))
            · by_cases hm : m = n <;> simp [after, view, Hypervisor.edit, hD, he, Except.toOption, hm]
            · simp [after, view, Hypervisor.edit, hD, he, Except.toOption]

/-- A rename, from any world: it fails before any change or rolls back, moves the VM's
definition, or, when `define` and its rollback both fail, loses the VM's definition. -/
theorem vmRename_allowed (newName : String) (uuid : Option String) (w : World) :
    view (after (vmRename newName uuid w)) = view w ∨
      view (after (vmRename newName uuid w)) = (view w).move newName (renamed · newName uuid) ∨
      view (after (vmRename newName uuid w)) = (view w).erase w.vm.name := by
  rw [vmRename_eq]
  cases hD : w.store.defs w.vm.name with
  | none =>
    obtain ⟨e, he⟩ :=
      renameXml_undefined (w := { w with vm := { w.vm with alive := false } }) hD newName uuid
    exact .inl (by rw [he]; rfl)
  | some D =>
    rw [renameXml_run (w := { w with vm := { w.vm with alive := false } }) hD]
    simp only [World.replyAt_mk]
    split
    · exact .inl rfl
    · exact .inl rfl
    · refine .inr (.inr (Hypervisor.ext (funext fun m => ?_) rfl))
      by_cases hm : m = w.vm.name <;> simp [after, view, Hypervisor.erase, hm]
    · exact .inl rfl
    · refine .inr (.inl (Hypervisor.ext (funext fun m => ?_) ?_))
      · by_cases hm : m = newName <;> simp [after, view, Hypervisor.move, hD, hm]
      · simp [after, view, Hypervisor.move, hD]

/-- **Every run of a call has an allowed effect**, from every world, whatever the tool answers. -/
theorem Op.run_allowed (op : Op) (w : World) : op.Allowed (view w) (view (op.run w)) := by
  -- a setter is `editDomain` of an update whose in-place edit is its purpose
  have hsetter : ∀ {n : String} {edit : Element → Except PyError Element}, KeepsName n edit →
      op.loses (view w) = some n → op.run w = after (editDomain n edit w) →
      op.intended (view w) = (view w).edit n (fun D => (edit D).toOption) →
      op.Allowed (view w) (view (op.run w)) := by
    intro n edit hedit hl hrun hint
    rw [hrun]
    rcases editDomain_allowed hedit w with h | h | h <;> rw [h]
    · exact .unchanged
    · rw [← hint]; exact .intended
    · exact .lost hl
  cases op with
  | setVmVcpus n value =>
    exact hsetter (keepsName_vcpuUpdate n value) rfl rfl (Op.intended_setVmVcpus n value w)
  | setCpuMode n mode =>
    exact hsetter (keepsName_cpuModeUpdate n mode) rfl rfl (Op.intended_setCpuMode n mode w)
  | setPrimarySerial n type port path =>
    exact hsetter (fun _ _ hD h => (primarySerialUpdate_domainName h).trans hD) rfl rfl rfl
  | vmRename newName uuid =>
    rcases vmRename_allowed newName uuid w with h | h | h <;> simp only [run, h]
    · exact .unchanged
    · exact .intended
    · exact .lost rfl
  | getNumaParams n =>
    rw [run, view_of_touches_nil (touches_getNumaParams n) w]; exact .unchanged
  | getDiskBlk n => rw [run, view_of_touches_nil (touches_getDiskBlk n) w]; exact .unchanged
  | getDiskCount n => rw [run, view_of_touches_nil (touches_getDiskCount n) w]; exact .unchanged

/-- **Whatever the tool answers, a session is a sequence of allowed effects**: each call did
nothing, did what it is for, or left its domain undefined after a failed `define`. -/
theorem session_allowed (ops : List Op) (w : World) :
    SessionAllowed ops (view w) (view (session ops w)) := by
  induction ops generalizing w with
  | nil => exact .nil _
  | cons op ops ih => exact .cons (op.run_allowed w) (ih (op.run w))

end VMXML

end LibvirtXml
