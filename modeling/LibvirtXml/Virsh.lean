/-
# The external tool: `virsh`, and the world `vm_xml.py` runs in

Every persistent effect of `vm_xml.py` goes through three calls on its `virsh_instance`:
`dumpxml(name)`, `remove_domain(name)` and `define(xml)`.  The `virsh` module is not among the
sources, so the binding is modelled from the spec (§4.4): a call either succeeds, with the effect
below, or fails with `error.CmdError` carrying the tool's diagnostic, and a failed call changes
nothing.

* The hypervisor keeps a `Store` of defined domains.  libvirt files a definition under the name
  its document carries (`/domain/name`), so the store's invariant, carried as a field, is that
  EVERY DOCUMENT IS FILED UNDER ITS OWN NAME (`Store.filed`).  That invariant is what lets a
  rollback `define` of a backup copy put back exactly the entry that `remove_domain` took away.
* Which calls fail is decided outside the program.  The world holds the tool's answers to the
  calls still to come (`World.replies`, read in order; once they run out every call succeeds),
  so a theorem about all worlds is a theorem about every pattern of failures.
* The world also records every call made (`World.calls`) and holds the test's `vm` object, the
  one Python object that `vm_rename` changes and that outlives an exception.

Programs run in `EStateM PyError World`: an exception keeps the state it was raised in, which is
what a Python exception does to everything the program changed before it.
-/
import LibvirtXml.Accessors

namespace LibvirtXml

/-! ## 1. The store of defined domains -/

/-- What libvirt reads as a definition's name: the text of the root `domain`'s first `name`
child.  A document with another root is no domain definition. -/
def domainName (d : Element) : Option String :=
  if d.tag = "domain" then (d.children.find? (·.tag == "name")).bind (·.text) else none

section DomainName

variable {d : Element}

/-- An edit of a child that is not the `name` element, keeping its tag, keeps the name. -/
theorem domainName_modifyChild {i : Nat} {f : Element → Element}
    (hi : ∀ c, d.child? i = some c → c.tag ≠ "name") (hf : ∀ x, (f x).tag = x.tag) :
    domainName (d.modifyChild i f) = domainName d := by
  cases hc : d.child? i with
  | none =>
    have hlen : d.children.length ≤ i := List.getElem?_eq_none_iff.mp hc
    simp [Element.modifyChild, List.modify_eq_self hlen, domainName]
  | some c =>
    have hn : (c.tag == "name") = false := by simpa using hi c hc
    simp only [domainName, Element.modifyChild]
    rw [find?_modify_of_not (fun x : Element => x.tag == "name") f d.children
      (show d.children[i]? = some c from hc) hn (by simp only [hf]; exact hn)]

/-- Removing a child that is not the `name` element keeps the name. -/
theorem domainName_removeChild {i : Nat} (hi : ∀ c, d.child? i = some c → c.tag ≠ "name") :
    domainName (d.removeChild i) = domainName d := by
  cases hc : d.child? i with
  | none =>
    have hlen : d.children.length ≤ i := List.getElem?_eq_none_iff.mp hc
    simp [Element.removeChild, List.eraseIdx_of_length_le hlen, domainName]
  | some c =>
    simp only [domainName, Element.removeChild]
    rw [find?_eraseIdx_of_not (fun x : Element => x.tag == "name") d.children
      (show d.children[i]? = some c from hc) (by simpa using hi c hc)]

/-- Appending a child that is not a `name` element keeps the name. -/
theorem domainName_subElement {t : String} (ht : t ≠ "name") (a : List (String × String)) :
    domainName (d.subElement t a) = domainName d := by
  simp [domainName, Element.subElement, ht]

/-- Setting the name text gives the document that name. -/
theorem domainName_setChildText_name (h : d.tag = "domain") (v : String) :
    domainName (d.setChildText "name" v) = some v := by
  obtain ⟨x, hx, hxt⟩ := Element.text_setChildText d "name" v
  rw [domainName, Element.tag_setChildText, if_pos h, ← Element.bind_child?_find, hx]
  exact hxt

/-- What `find t` returns is not the `name` element when `t` is another tag. -/
theorem tag_ne_of_find {t : String} (ht : t ≠ "name") {i : Nat} (hf : d.find t = some i) :
    ∀ c, d.child? i = some c → c.tag ≠ "name" := by
  obtain ⟨c, hc, hct⟩ := Element.child?_of_find hf
  intro c' hc'
  rw [hc, Option.some.injEq] at hc'
  subst hc'; rwa [hct]

/-- Setting the text of a child with another tag leaves the name alone. -/
theorem domainName_setChildText_of_ne {t : String} (ht : t ≠ "name") (v : String) :
    domainName (d.setChildText t v) = domainName d := by
  unfold Element.setChildText
  cases hf : d.find t with
  | some i => exact domainName_modifyChild (tag_ne_of_find ht hf) (fun _ => rfl)
  | none =>
    have hlen :
        ∀ c, (d.subElement t []).child? d.children.length = some c → c.tag ≠ "name" := by
      rw [Element.child?_subElement_length]; rintro c ⟨⟩; exact ht
    simp only
    rw [domainName_modifyChild (f := fun x => { x with text := some v }) hlen (fun _ => rfl),
      domainName_subElement ht]

/-- Removing a child with another tag leaves the name alone. -/
theorem domainName_removeFirst_of_ne {t : String} (ht : t ≠ "name") :
    domainName (d.removeFirst t) = domainName d := by
  unfold Element.removeFirst
  cases hf : d.find t with
  | some i => exact domainName_removeChild (tag_ne_of_find ht hf)
  | none => rfl

/-- A document with a name is a `domain` document. -/
theorem tag_of_domainName {n : String} (h : domainName d = some n) : d.tag = "domain" := by
  by_contra ht; simp [domainName, ht] at h

/-- The root's child at `i`, if there is one, is not the `name` element. -/
def OffName (e : Element) (i : Nat) : Prop := ∀ c, e.child? i = some c → c.tag ≠ "name"

/-- **An edit inside a child that is not the `name` element keeps the name**, and keeps that
child clear of it, so that edits below it can follow one another. -/
theorem offName_modifyAt {i : Nat} (hi : OffName d i) {f : Element → Element}
    (hf : ∀ x, (f x).tag = x.tag) {p : Path} (hp : p.head? = some i) :
    domainName (d.modifyAt p f) = domainName d ∧ OffName (d.modifyAt p f) i := by
  obtain ⟨q, rfl⟩ : ∃ q, p = i :: q := by
    cases p with
    | nil => cases hp
    | cons j q => exact ⟨q, by cases hp; rfl⟩
  refine ⟨domainName_modifyChild hi fun x => Element.tag_modifyAt hf x q, fun c hc => ?_⟩
  rw [Element.modifyAt_cons, Element.child?_modifyChild_self] at hc
  obtain ⟨c₀, hc₀, rfl⟩ := Option.map_eq_some'.mp hc
  rw [Element.tag_modifyAt hf]
  exact hi c₀ hc₀

end DomainName

/-- The hypervisor's defined domains, each filed under its own name. -/
structure Store where
  defs : String → Option Element
  filed : ∀ n d, defs n = some d → domainName d = some n

namespace Store

@[ext] theorem ext {s t : Store} (h : ∀ n, s.defs n = t.defs n) : s = t := by
  cases s; cases t; congr; funext n; exact h n

/-- `undefine name`: the domain is no longer defined; undefining an unknown name does nothing. -/
def erase (s : Store) (n : String) : Store where
  defs m := if m = n then none else s.defs m
  filed m d h := by
    by_cases hm : m = n
    · simp [hm] at h
    · simp only [hm, if_false] at h; exact s.filed m d h

/-- File `d` under `n`, its own name, replacing what was filed there. -/
def put (s : Store) (n : String) (d : Element) (h : domainName d = some n) : Store where
  defs m := if m = n then some d else s.defs m
  filed m d' hd := by
    by_cases hm : m = n
    · simp only [hm, if_true, Option.some.injEq] at hd; subst hd hm; exact h
    · simp only [hm, if_false] at hd; exact s.filed m d' hd

/-- `define xml`: file the document under its name; libvirt rejects a document without one. -/
def define (s : Store) (d : Element) : Option Store :=
  match h : domainName d with
  | some n => some (s.put n d h)
  | none => none

@[simp] theorem erase_defs (s : Store) (n m : String) :
    (s.erase n).defs m = if m = n then none else s.defs m := rfl

@[simp] theorem put_defs (s : Store) (n : String) (d : Element) (h : domainName d = some n)
    (m : String) : (s.put n d h).defs m = if m = n then some d else s.defs m := rfl

theorem define_eq_some {s : Store} {d : Element} {n : String} (h : domainName d = some n) :
    s.define d = some (s.put n d h) := by
  unfold define
  split
  · rename_i n' h'
    obtain rfl : n' = n := Option.some.inj (h'.symm.trans h)
    rfl
  · simp_all

theorem define_eq_none {s : Store} {d : Element} (h : domainName d = none) : s.define d = none := by
  unfold define; split <;> simp_all

/-- **Undefining a domain and defining its own document again gives back the store.** -/
theorem define_erase_self {s : Store} {n : String} {d : Element} (hd : s.defs n = some d) :
    (s.erase n).define d = some s := by
  rw [define_eq_some (s.filed n d hd), Option.some.injEq]
  ext m
  by_cases hm : m = n
  · subst hm; simp [hd]
  · simp [hm]

end Store

/-! ## 2. Replies, calls and the world -/

/-- The external tool's answer to one call. -/
inductive Reply where
  | ok
  | fail (detail : String)
deriving Repr, DecidableEq

/-- A call on the external tool, as the world records it. -/
inductive Call where
  | dumpxml (name : String)
  | removeDomain (name : String)
  | define (xml : Element)
deriving Repr, DecidableEq

/-- The test's VM object, as far as `vm_rename` reads and writes it. -/
structure Vm where
  name : String
  uuid : Option String
  alive : Bool
deriving Repr, DecidableEq

/-- Everything the façade reads or changes outside its local documents. -/
structure World where
  store : Store
  replies : List Reply
  calls : List Call
  vm : Vm

/-- A procedure of the façade: it may raise a Python exception, keeping the world as it was at
the raise. -/
abbrev PyM := EStateM PyError World

namespace World

/-- The answer the `k`-th call from now will get. -/
def replyAt (w : World) (k : Nat) : Reply := w.replies.getD k .ok

/-- The world after making the call `c` and reading its answer. -/
def next (w : World) (c : Call) : World :=
  { w with replies := w.replies.tail, calls := w.calls ++ [c] }

@[simp] theorem next_store (w : World) (c : Call) : (w.next c).store = w.store := rfl
@[simp] theorem next_vm (w : World) (c : Call) : (w.next c).vm = w.vm := rfl
@[simp] theorem next_calls (w : World) (c : Call) : (w.next c).calls = w.calls ++ [c] := rfl
/-- The answers to come do not depend on the store, the calls made or the VM object. -/
@[simp] theorem replyAt_mk (w : World) (s : Store) (cs : List Call) (v : Vm) (k : Nat) :
    World.replyAt ⟨s, w.replies, cs, v⟩ k = w.replyAt k := rfl

@[simp] theorem replyAt_next (w : World) (c : Call) (k : Nat) :
    (w.next c).replyAt k = w.replyAt (k + 1) := by
  simp only [replyAt, next]; cases w.replies <;> simp

/-- A tool that answers every call to come with success. -/
def Reliable (w : World) : Prop := ∀ k, w.replyAt k = .ok

theorem Reliable.next {w : World} (h : w.Reliable) (c : Call) : (w.next c).Reliable :=
  fun k => by rw [replyAt_next]; exact h (k + 1)

end World

/-- Python's `raise` of an exception computed earlier: `Except` lifted into a procedure. -/
def ofExcept {σ α : Type} : Except PyError α → EStateM PyError σ α
  | .ok a => pure a
  | .error e => throw e

/-- `try: x` / `except error.CmdError, detail: handler(detail)`; other exceptions pass through. -/
def exceptCmdError {α : Type} (x : PyM α) (handler : String → PyM α) : PyM α := fun w =>
  match x w with
  | .error (.cmdError detail) w' => handler detail w'
  | r => r

/-! ## 3. The three calls -/

namespace Virsh

/-- Make a call: record it and read the tool's answer. -/
def call (c : Call) : PyM Reply := fun w => .ok (w.replyAt 0) (w.next c)

/-- `virsh.dumpxml(name)`: the document filed under `name`. -/
def dumpxml (name : String) : PyM Element := do
  match ← call (.dumpxml name) with
  | .fail detail => throw (.cmdError detail)
  | .ok => match (← get).store.defs name with
    | some d => pure d
    | none => throw (.cmdError ("failed to get domain '" ++ name ++ "'"))

/-- `virsh.remove_domain(name)`: undefine the domain. -/
def removeDomain (name : String) : PyM Unit := do
  match ← call (.removeDomain name) with
  | .fail detail => throw (.cmdError detail)
  | .ok => modify fun w => { w with store := w.store.erase name }

/-- `virsh.define(xml)`: file the document under its own name. -/
def define (d : Element) : PyM Unit := do
  match ← call (.define d) with
  | .fail detail => throw (.cmdError detail)
  | .ok => match (← get).store.define d with
    | some s => modify fun w => { w with store := s }
    | none => throw (.cmdError "missing domain name")

theorem dumpxml_run (name : String) (w : World) : dumpxml name w =
    match w.replyAt 0 with
    | .fail detail => .error (.cmdError detail) (w.next (.dumpxml name))
    | .ok => match w.store.defs name with
      | some d => .ok d (w.next (.dumpxml name))
      | none => .error (.cmdError ("failed to get domain '" ++ name ++ "'"))
          (w.next (.dumpxml name)) := by
  cases hr : w.replyAt 0 <;> cases hs : w.store.defs name <;>
    simp [dumpxml, call, hr, hs, bind, EStateM.bind, get, getThe, MonadStateOf.get, EStateM.get,
      pure, EStateM.pure, throw, throwThe, MonadExceptOf.throw, EStateM.throw]

theorem removeDomain_run (name : String) (w : World) : removeDomain name w =
    match w.replyAt 0 with
    | .fail detail => .error (.cmdError detail) (w.next (.removeDomain name))
    | .ok => .ok () { w.next (.removeDomain name) with store := w.store.erase name } := by
  cases hr : w.replyAt 0 <;> simp [removeDomain, call, hr, bind, EStateM.bind, modify,
    modifyGet, MonadStateOf.modifyGet, EStateM.modifyGet, throw, throwThe, MonadExceptOf.throw,
    EStateM.throw]

theorem define_run (d : Element) (w : World) : define d w =
    match w.replyAt 0 with
    | .fail detail => .error (.cmdError detail) (w.next (.define d))
    | .ok => match w.store.define d with
      | some s => .ok () { w.next (.define d) with store := s }
      | none => .error (.cmdError "missing domain name") (w.next (.define d)) := by
  cases hr : w.replyAt 0 <;> cases hs : w.store.define d <;>
    simp [define, call, hr, hs, bind, EStateM.bind, get, getThe, MonadStateOf.get, EStateM.get,
      modify, modifyGet, MonadStateOf.modifyGet, EStateM.modifyGet, throw, throwThe,
      MonadExceptOf.throw, EStateM.throw]

end Virsh

end LibvirtXml
