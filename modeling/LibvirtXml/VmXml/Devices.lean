/-
# The devices of a definition: the disk map and the primary serial

**The disk map.**  `get_disk_all` walks the `disk` children of the root's first `devices` and
files each under the `dev` of its first `target`, in a dictionary.  The loop is
`for x in xs: d[k(x)] = x`, whose keys and entries `ElementTree.lean` describes once
(`mem_keys_foldl_dictSet`, `mem_foldl_dictSet`); here they become: the keys are the disks' devs,
each filed with a disk that carries it (`getDiskAll_ok`, `getDiskAll_keys_devs`).  Two disks
with one dev share a key, so `get_disk_count` counts the DISTINCT devs (`getDiskCount_run`), and
the key holds the LAST of them, which overwrote the others (`getDiskAll_lookup`).  The loop
raises `AttributeError`, and nothing else, exactly when the root has no `devices` or a disk has no
`target`, and otherwise returns the map (`getDiskAll_spec`).

**The primary serial.**  `set_primary_serial` edits, in place, the first `serial` of `devices`,
or one it appends when `get_primary_serial` raises.  The edits all happen inside that serial,
so they are one local edit, `serialEdit`, of the serial element (`editSerial_eq`), and the
document that comes back is `devices` edited by `withPrimarySerial` (`setPrimarySerial_run`):
when the call completes, the primary serial there has the type, port and path asked for
(`setPrimarySerial_features`).  The one way out is the path branch: `serial.find('source').set('path', path)` raises
`AttributeError` when the serial has no source, which is always the case for the serial the
function has just created.  So with a path the call returns only by editing a first serial that
has a target and a source (`primarySerialUpdate_some`), and made twice it is made once
(`primarySerialUpdate_primarySerialUpdate`).  The edited document is written to its file and read
back before the redefinition; `setPrimarySerial` takes that round trip as the identity, and
`VmXml/Writable.lean` models it (`setPrimarySerialReadBack_reliable`).

**The name.**  On every path, not only the ones above, the edits stay below `devices`, so the
document keeps its name and the redefinition touches no other domain (`touches_setPrimarySerial`).
-/
import LibvirtXml.VmXml.Basic

namespace LibvirtXml

namespace VMXML

/-! ## 1. The disk map -/

/-- The body of `get_disk_all`'s loop: `dev = node.find('target').get('dev')`, then
`disks[dev] = node`.  A disk without a `target` raises `AttributeError`. -/
def addDisk (vmxml : Element) (disks : List (Option String × Path)) (node : Path) :
    Except PyError (List (Option String × Path)) :=
  match (vmxml.findAt node "target").bind vmxml.getAt? with
  | some target => .ok (dictSet disks (target.get "dev") node)
  | none => .error .attributeError

/-- `VMXML.get_disk_all()`: the `disk` elements of the first `devices`, keyed by their target's
`dev` (`None` for a target without one). -/
def getDiskAll (vmxml : Element) : Except PyError (List (Option String × Path)) :=
  match vmxml.find "devices" with
  | some i => (vmxml.findallAt [i] "disk").foldlM (addDisk vmxml) []
  | none => .error .attributeError

/-- `VMXML.get_disk_blk(vm_name)`: the keys of the disk map.  Its `return None` is dead code:
`get_disk_all` returns a dictionary or raises. -/
def getDiskBlk (vmName : String) : PyM (List (Option String)) := do
  let vmxml ← newFromDumpxml vmName
  let disks ← ofExcept (getDiskAll vmxml)
  pure (disks.map Prod.fst)

/-- `VMXML.get_disk_count(vm_name)`: the size of the disk map (its `return 0` is dead in the
same way). -/
def getDiskCount (vmName : String) : PyM Nat := do
  let vmxml ← newFromDumpxml vmName
  let disks ← ofExcept (getDiskAll vmxml)
  pure disks.length

/-- The disks of a definition: the `disk` children of the root's first `devices` child. -/
def disksOf (d : Element) : List Element :=
  ((d.children.find? (·.tag == "devices")).map (·.children.filter (·.tag == "disk"))).getD []

/-- A disk's `dev`: the `dev` attribute of its first `target`. -/
def diskDev (disk : Element) : Option String :=
  (disk.children.find? (·.tag == "target")).bind (·.get "dev")

section DiskMap

variable {d dv : Element} {i : Nat}

theorem disksOf_of_find (hi : d.find "devices" = some i) (hdv : d.child? i = some dv) :
    disksOf d = dv.children.filter (·.tag == "disk") := by
  have h := Element.bind_child?_find d "devices"
  rw [hi, Option.some_bind, hdv] at h
  simp [disksOf, ← h]

/-- **With every disk's target in place, the loop never raises**, and the disk map is the pure
loop keyed by `diskDev`. -/
theorem getDiskAll_eq (hi : d.find "devices" = some i) (hdv : d.child? i = some dv)
    (ht : ∀ disk ∈ disksOf d, (disk.children.find? (·.tag == "target")).isSome) :
    getDiskAll d = .ok ((d.findallAt [i] "disk").foldl
      (fun m q => dictSet m ((d.getAt? q).bind diskDev) q) []) := by
  have hp : d.getAt? [i] = some dv := by simp [hdv]
  unfold getDiskAll
  rw [hi]
  refine foldlM_except_ok _ _ _ _ fun m q hq => ?_
  obtain ⟨c, hc, hq⟩ := Element.getAt?_of_mem_findallAt hp hq
  obtain ⟨tg, htg⟩ := Option.isSome_iff_exists.mp (ht c (by rwa [disksOf_of_find hi hdv]))
  simp [addDisk, Element.bind_getAt?_findAt, hq, htg, diskDev]

/-- The devs the loop files its disks under, in document order. -/
theorem map_diskDev_findallAt (hi : d.find "devices" = some i) (hdv : d.child? i = some dv) :
    (d.findallAt [i] "disk").map (fun q => (d.getAt? q).bind diskDev) =
      (disksOf d).map diskDev := by
  rw [disksOf_of_find hi hdv]
  exact Element.map_bind_getAt?_findallAt (by simp [hdv]) "disk" diskDev

/-- **The disk map, for every document whose disks have targets**: its keys are the disks'
devs, each once (a perm of their `dedup`), and each entry is a disk filed under its own dev. -/
theorem getDiskAll_ok (hi : d.find "devices" = some i) (hdv : d.child? i = some dv)
    (ht : ∀ disk ∈ disksOf d, (disk.children.find? (·.tag == "target")).isSome) :
    ∃ m, getDiskAll d = .ok m ∧ (m.map Prod.fst).Perm ((disksOf d).map diskDev).dedup ∧
      ∀ e ∈ m, ∃ disk ∈ disksOf d, d.getAt? e.2 = some disk ∧ diskDev disk = e.1 := by
  refine ⟨_, getDiskAll_eq hi hdv ht, ?_, fun e he => ?_⟩
  · refine (List.perm_ext_iff_of_nodup (nodup_keys_foldl_dictSet _ _ (by simp))
      (List.nodup_dedup _)).mpr fun k => ?_
    rw [mem_keys_foldl_dictSet, map_diskDev_findallAt hi hdv, List.mem_dedup]
    simp
  · rcases mem_foldl_dictSet _ _ _ he with h | ⟨hq, hk⟩
    · simp at h
    obtain ⟨c, hc, hq'⟩ :=
      Element.getAt?_of_mem_findallAt (show d.getAt? [i] = some dv by simp [hdv]) hq
    exact ⟨c, by rwa [disksOf_of_find hi hdv], hq', by rw [← hk, hq']; rfl⟩

/-- The addresses the loop walks are those of the disks, in document order. -/
theorem map_getAt?_findallAt (hi : d.find "devices" = some i) (hdv : d.child? i = some dv) :
    (d.findallAt [i] "disk").map d.getAt? = (disksOf d).map some := by
  have h := Element.map_bind_getAt?_findallAt (show d.getAt? [i] = some dv by simp [hdv])
    "disk" some
  simpa [disksOf_of_find hi hdv] using h

/-- **The last disk wins**: for every document whose disks have targets, the map files each
dev under the LAST disk carrying it, as `disks[dev] = node` overwrites the earlier ones. -/
theorem getDiskAll_lookup (hi : d.find "devices" = some i) (hdv : d.child? i = some dv)
    (ht : ∀ disk ∈ disksOf d, (disk.children.find? (·.tag == "target")).isSome) :
    ∃ m, getDiskAll d = .ok m ∧
      ∀ k, (m.lookup k).bind d.getAt? = ((disksOf d).filter (diskDev · == k)).getLast? := by
  refine ⟨_, getDiskAll_eq hi hdv ht, fun k => ?_⟩
  rw [lookup_foldl_dictSet, List.lookup_nil, Option.or_none]
  have hmap : ((d.findallAt [i] "disk").filter fun q => (d.getAt? q).bind diskDev == k).map
      d.getAt? = ((disksOf d).filter (diskDev · == k)).map some := by
    have h := congrArg (List.filter fun o => o.bind diskDev == k) (map_getAt?_findallAt hi hdv)
    rwa [List.filter_map, List.filter_map] at h
  have hlast := congrArg List.getLast? hmap
  rw [List.getLast?_map, List.getLast?_map] at hlast
  revert hlast
  cases ((d.findallAt [i] "disk").filter fun q => (d.getAt? q).bind diskDev == k).getLast? <;>
    cases ((disksOf d).filter (diskDev · == k)).getLast? <;> simp

/-- A definition with two disks on one dev, a file and then a block device. -/
def sharedDevDomain : Element :=
  ⟨"domain", [], none, [⟨"devices", [], none,
    [⟨"disk", [("type", "file")], none, [⟨"target", [("dev", "vda")], none, []⟩]⟩,
     ⟨"disk", [("type", "block")], none, [⟨"target", [("dev", "vda")], none, []⟩]⟩]⟩]⟩

theorem getDiskAll_lookup_sharedDev :
    sharedDevDomain.find "devices" = some 0 ∧ (∀ disk ∈ disksOf sharedDevDomain,
      (disk.children.find? (·.tag == "target")).isSome) ∧
    ∃ m, getDiskAll sharedDevDomain = .ok m ∧ (m.lookup (some "vda")).bind sharedDevDomain.getAt? =
      some ⟨"disk", [("type", "block")], none, [⟨"target", [("dev", "vda")], none, []⟩]⟩ := by
  obtain ⟨m, hm, hk⟩ := getDiskAll_lookup (d := sharedDevDomain) (i := 0) rfl rfl (by decide)
  exact ⟨rfl, by decide, m, hm, by rw [hk]; decide⟩

end DiskMap

section DiskQueries

variable {w : World} {n : String} {D : Element}

theorem getDiskCount_eq (hD : w.store.defs n = some D) (h0 : w.replyAt 0 = .ok) :
    getDiskCount n w = match getDiskAll D with
      | .ok m => .ok m.length (w.next (.dumpxml n))
      | .error e => .error e (w.next (.dumpxml n)) := by
  simp only [getDiskCount, bind, EStateM.bind, newFromDumpxml, Virsh.dumpxml_run, h0, hD]
  cases getDiskAll D <;> rfl

theorem getDiskBlk_eq (hD : w.store.defs n = some D) (h0 : w.replyAt 0 = .ok) :
    getDiskBlk n w = match getDiskAll D with
      | .ok m => .ok (m.map Prod.fst) (w.next (.dumpxml n))
      | .error e => .error e (w.next (.dumpxml n)) := by
  simp only [getDiskBlk, bind, EStateM.bind, newFromDumpxml, Virsh.dumpxml_run, h0, hD]
  cases getDiskAll D <;> rfl

variable {i : Nat} {dv : Element}

/-- **`get_disk_count` counts the distinct devs**, fewer than the disks when two share one. -/
theorem getDiskCount_run (hD : w.store.defs n = some D) (h0 : w.replyAt 0 = .ok)
    (hi : D.find "devices" = some i) (hdv : D.child? i = some dv)
    (ht : ∀ disk ∈ disksOf D, (disk.children.find? (·.tag == "target")).isSome) :
    getDiskCount n w = .ok ((disksOf D).map diskDev).dedup.length (w.next (.dumpxml n)) := by
  obtain ⟨m, hm, hperm, -⟩ := getDiskAll_ok hi hdv ht
  rw [getDiskCount_eq hD h0, hm, ← hperm.length_eq, List.length_map]

/-- `get_disk_blk` lists the distinct devs, each once, in the map's order. -/
theorem getDiskBlk_run (hD : w.store.defs n = some D) (h0 : w.replyAt 0 = .ok)
    (hi : D.find "devices" = some i) (hdv : D.child? i = some dv)
    (ht : ∀ disk ∈ disksOf D, (disk.children.find? (·.tag == "target")).isSome) :
    ∃ l, getDiskBlk n w = .ok l (w.next (.dumpxml n)) ∧
      l.Perm ((disksOf D).map diskDev).dedup := by
  obtain ⟨m, hm, hperm, -⟩ := getDiskAll_ok hi hdv ht
  exact ⟨_, by rw [getDiskBlk_eq hD h0, hm], hperm⟩

end DiskQueries

/-- The two disk queries only read. -/
theorem touches_getDiskBlk (n : String) : Touches [] (fun _ => True) (getDiskBlk n) :=
  touches_bind (touches_dumpxml n) fun _ _ =>
    touches_bind (touches_ofExcept (Q := fun _ => True) fun _ _ => trivial) fun _ _ =>
      touches_pure trivial

theorem touches_getDiskCount (n : String) : Touches [] (fun _ => True) (getDiskCount n) :=
  touches_bind (touches_dumpxml n) fun _ _ =>
    touches_bind (touches_ofExcept (Q := fun _ => True) fun _ _ => trivial) fun _ _ =>
      touches_pure trivial

/-- The first child with a tag is where `find` points. -/
theorem exists_find_of_find? {d x : Element} {t : String}
    (h : d.children.find? (·.tag == t) = some x) : ∃ i, d.find t = some i ∧ d.child? i = some x := by
  rw [← Element.bind_child?_find, Option.bind_eq_some] at h
  exact h

/-- **The disk map matches the disk elements.**  For a document whose first `devices` has disks
that each carry a target with a `dev`, the map's keys are exactly those devs, each filed with a
disk carrying it; when the devs are distinct, `get_disk_count` is the number of disks and
`get_disk_blk` lists each dev once. -/
theorem getDiskAll_keys_devs {d : Element}
    (hdev : (d.children.find? (·.tag == "devices")).isSome)
    (hdisk : ∀ disk ∈ disksOf d, (diskDev disk).isSome) :
    (∃ m, getDiskAll d = .ok m ∧ (∀ k, k ∈ m.map Prod.fst ↔ k ∈ (disksOf d).map diskDev) ∧
      ∀ e ∈ m, ∃ disk ∈ disksOf d, d.getAt? e.2 = some disk ∧ diskDev disk = e.1) ∧
    (((disksOf d).map diskDev).Nodup → ∀ (w : World) (n : String), w.store.defs n = some d →
      w.replyAt 0 = .ok →
      getDiskCount n w = .ok (disksOf d).length (w.next (.dumpxml n)) ∧
      ∃ l, getDiskBlk n w = .ok l (w.next (.dumpxml n)) ∧ l.Perm ((disksOf d).map diskDev)) := by
  obtain ⟨dv, hdv⟩ := Option.isSome_iff_exists.mp hdev
  obtain ⟨i, hi, hdv⟩ := exists_find_of_find? hdv
  have ht : ∀ disk ∈ disksOf d, (disk.children.find? (·.tag == "target")).isSome := by
    intro disk hd
    have := hdisk disk hd
    unfold diskDev at this
    cases h : disk.children.find? (·.tag == "target") <;> simp_all
  obtain ⟨m, hm, hperm, hent⟩ := getDiskAll_ok hi hdv ht
  refine ⟨⟨m, hm, fun k => by rw [hperm.mem_iff, List.mem_dedup], hent⟩, fun hnd w n hD h0 => ?_⟩
  rw [← hnd.dedup]
  refine ⟨by rw [getDiskCount_run hD h0 hi hdv ht, hnd.dedup, List.length_map], ?_⟩
  exact getDiskBlk_run hD h0 hi hdv ht

/-- `get_disk_all` raises nothing but `AttributeError`. -/
theorem getDiskAll_error {d : Element} {e : PyError} (h : getDiskAll d = .error e) :
    e = .attributeError := by
  unfold getDiskAll at h
  split at h
  · obtain ⟨_, _, hq⟩ := foldlM_except_error _ _ _ h
    unfold addDisk at hq
    split at hq
    · cases hq
    · cases hq; rfl
  · cases h; rfl

/-- A disk map came back only from a root with `devices` whose disks all have targets. -/
theorem getDiskAll_ok_targets {d : Element} {m : List (Option String × Path)}
    (h : getDiskAll d = .ok m) : (d.children.find? (·.tag == "devices")).isSome ∧
      ∀ disk ∈ disksOf d, (disk.children.find? (·.tag == "target")).isSome := by
  unfold getDiskAll at h
  split at h
  · rename_i i hi
    have hdev := (Element.find_isSome_iff d "devices").mp (by rw [hi]; rfl)
    obtain ⟨dv, hdv⟩ := Option.isSome_iff_exists.mp hdev
    obtain ⟨j, hj, hdv⟩ := exists_find_of_find? hdv
    obtain rfl : i = j := Option.some.inj (hi.symm.trans hj)
    refine ⟨hdev, fun disk hdisk => ?_⟩
    obtain ⟨q, hq, hqd⟩ : ∃ q ∈ d.findallAt [i] "disk", d.getAt? q = some disk := by
      rw [← List.mem_map, map_getAt?_findallAt hi hdv]
      exact List.mem_map_of_mem _ hdisk
    obtain ⟨_, _, hb⟩ := foldlM_except_ok_mem _ _ _ h q hq
    unfold addDisk at hb
    rw [Element.bind_getAt?_findAt, hqd, Option.some_bind] at hb
    cases ht : disk.children.find? (·.tag == "target") with
    | none => rw [ht] at hb; cases hb
    | some _ => rfl
  · cases h

/-- **What `get_disk_all` does, on every document**: it raises `AttributeError` exactly when
the root has no `devices` or one of the disks has no `target`, it raises nothing else, and
otherwise it returns the map its loop builds, each disk filed under its target's `dev`. -/
theorem getDiskAll_spec (d : Element) :
    (getDiskAll d = .error .attributeError ↔ ¬((d.children.find? (·.tag == "devices")).isSome ∧
      ∀ disk ∈ disksOf d, (disk.children.find? (·.tag == "target")).isSome)) ∧
    (∀ e, getDiskAll d = .error e → e = .attributeError) ∧
    ∀ i dv, d.find "devices" = some i → d.child? i = some dv →
      (∀ disk ∈ disksOf d, (disk.children.find? (·.tag == "target")).isSome) →
      getDiskAll d = .ok ((d.findallAt [i] "disk").foldl
        (fun m q => dictSet m ((d.getAt? q).bind diskDev) q) []) := by
  refine ⟨⟨?_, fun hn => ?_⟩, fun _ => getDiskAll_error, fun _ _ => getDiskAll_eq⟩
  · rintro h ⟨hdev, ht⟩
    obtain ⟨dv, hdv⟩ := Option.isSome_iff_exists.mp hdev
    obtain ⟨i, hi, hdv⟩ := exists_find_of_find? hdv
    rw [getDiskAll_eq hi hdv ht] at h
    cases h
  · cases h : getDiskAll d with
    | ok m => exact absurd (getDiskAll_ok_targets h) hn
    | error e => rw [getDiskAll_error h]

theorem getDiskAll_spec_vm1 :
    exampleDomain.find "devices" = some 2 ∧
      getDiskAll exampleDomain = .ok ((exampleDomain.findallAt [2] "disk").foldl
        (fun m q => dictSet m ((exampleDomain.getAt? q).bind diskDev) q) []) :=
  ⟨rfl, (getDiskAll_spec exampleDomain).2.2 2 _ rfl rfl (by decide)⟩

/-- At the worked store: `vm1`'s one disk, `vda`, is counted once. -/
theorem getDiskAll_keys_devs_vm1 :
    (exampleDomain.children.find? (·.tag == "devices")).isSome ∧
      (∀ disk ∈ disksOf exampleDomain, (diskDev disk).isSome) ∧
      getDiskCount "vm1" (exampleWorld []) = .ok 1 ((exampleWorld []).next (.dumpxml "vm1")) :=
  ⟨by decide, by decide,
    ((getDiskAll_keys_devs (d := exampleDomain) (by decide) (by decide)).2 (by decide)
      (exampleWorld []) "vm1" rfl rfl).1⟩

/-! ## 2. The primary serial -/

/-- What `VMXML.get_primary_serial()` returns: a dictionary with the keys `serial`, `type` and
`port`. -/
structure SerialFeatures where
  serial : Path
  type : Option String
  port : Option String
deriving Repr, DecidableEq

/-- `VMXML.get_primary_serial()`: the first `serial` of the first `devices`, its `type` and its
target's `port`.  A missing `devices`, `serial` or `target` raises `AttributeError`. -/
def getPrimarySerial (vmxml : Element) : Except PyError SerialFeatures :=
  match (vmxml.find "devices").bind (vmxml.findAt [·] "serial") with
  | none => .error .attributeError
  | some serial =>
    match vmxml.getAt? serial, (vmxml.findAt serial "target").bind vmxml.getAt? with
    | some s, some target => .ok ⟨serial, s.get "type", target.get "port"⟩
    | _, _ => .error .attributeError

/-- The `try`/`except AttributeError` of `set_primary_serial`: the primary serial, or, when
`get_primary_serial` raises, a new `<serial type='pty'><target port='0'/></serial>` appended to
`devices` (with no `devices`, `SubElement` raises in its turn). -/
def primarySerialOrNew (vmxml : Element) : Except PyError (Element × Path) :=
  match getPrimarySerial vmxml with
  | .ok features => .ok (vmxml, features.serial)
  | .error .attributeError => do
    let (vmxml, serial) ←
      vmxml.subElementAt ((vmxml.find "devices").map ([·])) "serial" [("type", "pty")]
    let (vmxml, _) ← vmxml.subElementAt (some serial) "target" [("port", "0")]
    pure (vmxml, serial)
  | .error e => .error e

/-- The edits of `set_primary_serial` on the serial at address `serial`: its `type`, its
target's `port`, then its source's `path`, or for `path=None` the removal of its source, where
the `AssertionError` of removing `None` is caught. -/
def editSerial (vmxml : Element) (serial : Path) (type port : String) (path : Option String) :
    Except PyError Element := do
  let vmxml := vmxml.modifyAt serial (·.set "type" type)
  let some target := vmxml.findAt serial "target" | throw .attributeError
  let vmxml := vmxml.modifyAt target (·.set "port" port)
  match path with
  | some path =>
    let some source := vmxml.findAt serial "source" | throw .attributeError
    pure (vmxml.modifyAt source (·.set "path" path))
  | none =>
    match vmxml.removeAt serial (vmxml.findAt serial "source") with
    | .ok vmxml => pure vmxml
    | .error .assertionError => pure vmxml
    | .error e => throw e

/-- The edit of `set_primary_serial`: find or make the primary serial, then edit it. -/
def primarySerialUpdate (type port : String) (path : Option String) (vmxml : Element) :
    Except PyError Element := do
  let (vmxml, serial) ← primarySerialOrNew vmxml
  editSerial vmxml serial type port path

/-- `VMXML.set_primary_serial(vm_name, type, port, path=None)`. -/
def setPrimarySerial (vmName type port : String) (path : Option String) : PyM Unit :=
  editDomain vmName (primarySerialUpdate type port path)

/-! ## 3. The edits as one edit of the serial -/

/-- The serial `set_primary_serial` appends when there is none. -/
def newSerial : Element :=
  ⟨"serial", [("type", "pty")], none, [⟨"target", [("port", "0")], none, []⟩]⟩

/-- **What `set_primary_serial` does to the serial element**: set its `type`, its first target's
`port`, and its first source's `path`, or, for `path=None`, drop its first source. -/
def serialEdit (type port : String) (path : Option String) (s : Element) : Element :=
  let s := (s.set "type" type).modifyFirst "target" (·.set "port" port)
  match path with
  | some v => s.modifyFirst "source" (·.set "path" v)
  | none => s.removeFirst "source"

/-- **What `set_primary_serial` does to `devices`**: `f` applied to its first serial, or to the
new serial appended after its other children. -/
def withPrimarySerial (f : Element → Element) (devices : Element) : Element :=
  match devices.find "serial" with
  | some j => devices.modifyChild j f
  | none => { devices with children := devices.children ++ [f newSerial] }

/-- The serial the edits apply to: the first of `devices`, or the new one. -/
def primarySerial (devices : Element) : Element :=
  (devices.children.find? (·.tag == "serial")).getD newSerial

section SerialEdit

variable {d s : Element} {p : Path} (type port : String)

/-! What the edited serial carries: the given `type`; on its first target, the given `port`; on
its first source, the given `path`; for `path=None`, its sources less the first one. -/

@[simp] theorem serialEdit_type (path : Option String) (s : Element) :
    (serialEdit type port path s).get "type" = some type := by
  cases path <;> simp [serialEdit]

theorem serialEdit_port (ht : (s.children.find? (·.tag == "target")).isSome)
    (path : Option String) :
    ((serialEdit type port path s).children.find? (·.tag == "target")).bind (·.get "port") =
      some port := by
  obtain ⟨tg, htg⟩ := Option.isSome_iff_exists.mp ht
  have h₁ := Element.find?_modifyFirst_self (e := s.set "type" type) (t := "target")
    (Element.tag_set · "port" port)
  cases path <;> simp only [serialEdit, ← List.filter_head?,
    Element.filter_modifyFirst_of_ne (show "source" ≠ "target" by decide)
      (Element.tag_set · "path" _), Element.filter_removeFirst_of_ne
      (show "source" ≠ "target" by decide)] <;>
    simp [List.filter_head?, h₁, htg]

theorem serialEdit_path (hs : (s.children.find? (·.tag == "source")).isSome) (v : String) :
    ((serialEdit type port (some v) s).children.find? (·.tag == "source")).bind (·.get "path") =
      some v := by
  obtain ⟨src, hsrc⟩ := Option.isSome_iff_exists.mp hs
  rw [serialEdit, Element.find?_modifyFirst_self (Element.tag_set · "path" v), ← List.filter_head?,
    Element.filter_modifyFirst_of_ne (show "target" ≠ "source" by decide)
      (Element.tag_set · "port" port)]
  simp [List.filter_head?, hsrc]

theorem serialEdit_sources (s : Element) :
    (serialEdit type port none s).children.filter (·.tag == "source") =
      (s.children.filter (·.tag == "source")).tail := by
  rw [serialEdit, Element.filter_removeFirst, Element.filter_modifyFirst_of_ne
    (show "target" ≠ "source" by decide) (Element.tag_set · "port" port)]
  rfl

theorem serialEdit_tag (path : Option String) (s : Element) :
    (serialEdit type port path s).tag = s.tag := by
  cases path <;> simp [serialEdit]

/-- **The edit with a path, made twice, is made once**, on a serial with a target and a source:
the second time, what it writes is already there. -/
theorem serialEdit_serialEdit (ht : (s.children.find? (·.tag == "target")).isSome)
    (hs : (s.children.find? (·.tag == "source")).isSome) (v : String) :
    serialEdit type port (some v) (serialEdit type port (some v) s) =
      serialEdit type port (some v) s := by
  set s' := serialEdit type port (some v) s
  have h₁ : s'.set "type" type = s' := Element.set_eq_self (serialEdit_type type port _ s)
  have h₂ : s'.modifyFirst "target" (·.set "port" port) = s' :=
    Element.modifyFirst_eq_self fun x hx =>
      Element.set_eq_self (by simpa [hx] using serialEdit_port type port ht (some v))
  have h₃ : s'.modifyFirst "source" (·.set "path" v) = s' :=
    Element.modifyFirst_eq_self fun x hx =>
      Element.set_eq_self (by simpa [hx] using serialEdit_path type port hs v)
  show ((s'.set "type" type).modifyFirst "target" (·.set "port" port)).modifyFirst "source"
    (·.set "path" v) = s'
  rw [h₁, h₂, h₃]

/-- **The in-place edits are one edit of the serial**: with a target in place, `editSerial`
raises only when a path is given and the serial has no source, and otherwise changes the
document at the serial's address by `serialEdit` and nowhere else. -/
theorem editSerial_eq (hs : d.getAt? p = some s) (ht : (s.find "target").isSome)
    (path : Option String) :
    editSerial d p type port path =
      if path.isSome ∧ s.find "source" = none then .error .attributeError
      else .ok (d.modifyAt p (serialEdit type port path)) := by
  obtain ⟨k, hk⟩ := Option.isSome_iff_exists.mp ht
  have htarget : (d.modifyAt p (·.set "type" type)).findAt p "target" = some (p ++ [k]) := by
    simp [Element.findAt, Element.getAt?_modifyAt_self, hs, hk]
  have hd₂ : (d.modifyAt p (·.set "type" type)).modifyAt (p ++ [k]) (·.set "port" port) =
      d.modifyAt p fun x => (x.set "type" type).modifyChild k (·.set "port" port) := by
    rw [Element.modifyAt_append, Element.modifyAt_modifyAt]; rfl
  -- the serial after the `type` and `port` edits, and the document holding it
  let s₂ := (s.set "type" type).modifyChild k (·.set "port" port)
  set D₂ := d.modifyAt p fun x => (x.set "type" type).modifyChild k (·.set "port" port) with hD₂
  have hget : D₂.getAt? p = some s₂ := by rw [hD₂, Element.getAt?_modifyAt_self, hs]; rfl
  have hfind : s₂.find "source" = s.find "source" :=
    Element.find_modifyChild _ _ (Element.tag_set · "port" port) _
  have hsource : D₂.findAt p "source" = (s.find "source").map (p ++ [·]) := by
    simp only [Element.findAt, hget, hfind, Option.some_bind]
  have hserial : ∀ f : Element → Element, f s₂ = serialEdit type port path s →
      D₂.modifyAt p f = d.modifyAt p (serialEdit type port path) := fun f hf => by
    rw [hD₂, Element.modifyAt_modifyAt]; exact Element.modifyAt_congr hs hf
  simp only [editSerial, htarget, hd₂, hsource]
  cases path with
  | some v =>
    cases hm : s.find "source" with
    | none => simp [throw, throwThe, MonadExceptOf.throw]
    | some m =>
      simp only [Option.map_some', Element.modifyAt_append, Option.isSome_some, true_and,
        reduceCtorEq, if_false]
      exact congrArg Except.ok (hserial _ (by
        simp [serialEdit, Element.modifyFirst, hk, hfind, hm, s₂]))
  | none =>
    cases hm : s.find "source" with
    | none =>
      simp only [hm, Option.map_none', Element.removeAt]
      exact congrArg Except.ok (Element.modifyAt_congr hs (by
        simp [serialEdit, Element.modifyFirst, Element.removeFirst, hk, hfind, hm, s₂]))
    | some m =>
      obtain ⟨c, hc, -⟩ := Element.child?_of_find (hfind.trans hm)
      have hrm : D₂.removeAt p (some (p ++ [m])) = .ok (D₂.modifyAt p (·.removeChild m)) :=
        Element.removeAt_child (x := c) (by simp [Element.getAt?_append, hget, hc])
      simp only [hm, Option.map_some', hrm]
      exact congrArg Except.ok (hserial _ (by
        simp [serialEdit, Element.modifyFirst, Element.removeFirst, hk, hfind, hm, s₂]))

end SerialEdit

section PrimarySerial

variable {D dv : Element} {i : Nat}

/-- **Finding or creating the serial touches nothing but `devices`**: the serial to edit sits at
`[i, j]`, and editing it there is editing `devices` by `withPrimarySerial`. -/
theorem primarySerialOrNew_eq (hi : D.find "devices" = some i) (hdv : D.child? i = some dv)
    (ht : ((primarySerial dv).find "target").isSome) :
    ∃ D' j, primarySerialOrNew D = .ok (D', [i, j]) ∧ D'.getAt? [i, j] = some (primarySerial dv) ∧
      ∀ f, D'.modifyAt [i, j] f = D.modifyChild i (withPrimarySerial f) := by
  have hfind := Element.bind_child?_find dv "serial"
  cases hj : dv.find "serial" with
  | some j =>
    obtain ⟨s, hs, -⟩ := Element.child?_of_find hj
    have hps : primarySerial dv = s := by simp [primarySerial, ← hfind, hj, hs]
    obtain ⟨k, hk⟩ := Option.isSome_iff_exists.mp (hps ▸ ht)
    obtain ⟨tg, htg, -⟩ := Element.child?_of_find hk
    refine ⟨D, j, ?_, by simp [hdv, hs, hps], fun f => ?_⟩
    · simp [primarySerialOrNew, getPrimarySerial, hi, Element.findAt, hdv, hj, hs, hk, htg]
    · exact Element.modifyChild_congr hdv (by simp [withPrimarySerial, hj])
  | none =>
    have hps : primarySerial dv = newSerial := by simp [primarySerial, ← hfind, hj]
    refine ⟨(D.modifyAt [i] (·.subElement "serial" [("type", "pty")])).modifyAt
      [i, dv.children.length] (·.subElement "target" [("port", "0")]), dv.children.length,
      ?_, ?_, fun f => ?_⟩
    · simp [primarySerialOrNew, getPrimarySerial, hi, Element.findAt, hdv, hj,
        Element.subElementAt, bind, Except.bind, pure, Except.pure, Element.child?_modifyChild_self,
        Element.child?_subElement_length]
    · simp only [Element.getAt?_modifyAt_self, Element.modifyAt_cons, Element.modifyAt_nil,
        Element.getAt?_cons, Element.getAt?_nil, Element.child?_modifyChild_self, hdv,
        Option.map_some', Option.some_bind, Element.child?_subElement_length, hps, Option.bind_some]
      rfl
    · rw [Element.modifyAt_modifyAt]
      simp only [Element.modifyAt_cons, Element.modifyAt_nil, Element.modifyChild_modifyChild]
      refine Element.modifyChild_congr hdv ?_
      simp only [Function.comp_def, Element.subElement_modifyChild_length, withPrimarySerial, hj]
      rfl

theorem withPrimarySerial_tag (f : Element → Element) (x : Element) :
    (withPrimarySerial f x).tag = x.tag := by
  unfold withPrimarySerial; split <;> rfl

/-- The serial of the edited `devices` is the edited serial. -/
theorem primarySerial_withPrimarySerial {f : Element → Element} (hf : ∀ x, (f x).tag = x.tag)
    (dv : Element) : primarySerial (withPrimarySerial f dv) = f (primarySerial dv) := by
  have hfind := Element.bind_child?_find dv "serial"
  unfold withPrimarySerial primarySerial
  cases hj : dv.find "serial" with
  | some j =>
    obtain ⟨s, hs, -⟩ := Element.child?_of_find hj
    have h : (dv.modifyChild j f).children.find? (·.tag == "serial") = some (f s) := by
      rw [← Element.bind_child?_find, Element.find_modifyChild _ _ hf, hj]
      simp [Element.child?_modifyChild_self, hs]
    simp [h, ← hfind, hj, hs]
  | none =>
    have hnone : dv.children.find? (·.tag == "serial") = none := by rw [← hfind, hj]; rfl
    simp [List.find?_append, hnone, hf, newSerial]

/-- An edit of the primary serial, made twice, is made once when it is so on that serial. -/
theorem withPrimarySerial_withPrimarySerial {f : Element → Element} (hf : ∀ x, (f x).tag = x.tag)
    (dv : Element) (hff : f (f (primarySerial dv)) = f (primarySerial dv)) :
    withPrimarySerial f (withPrimarySerial f dv) = withPrimarySerial f dv := by
  have hfind := Element.bind_child?_find dv "serial"
  cases hj : dv.find "serial" with
  | some j =>
    obtain ⟨s, hs, -⟩ := Element.child?_of_find hj
    have hps : primarySerial dv = s := by simp [primarySerial, ← hfind, hj, hs]
    simp only [withPrimarySerial, hj, Element.find_modifyChild _ _ hf,
      Element.modifyChild_modifyChild]
    exact Element.modifyChild_congr hs (hps ▸ hff)
  | none =>
    have hps : primarySerial dv = newSerial := by simp [primarySerial, ← hfind, hj]
    have hnil : positions (·.tag == "serial") dv.children = [] := by
      simpa [Element.find, Element.findall] using hj
    have hX : (withPrimarySerial f dv).find "serial" = some dv.children.length := by
      simp [withPrimarySerial, hj, Element.find, Element.findall, positions_append_singleton,
        hnil, hf, newSerial]
    have hc : (withPrimarySerial f dv).child? dv.children.length = some (f newSerial) := by
      simp [withPrimarySerial, hj, Element.child?]
    generalize withPrimarySerial f dv = X at hX hc ⊢
    unfold withPrimarySerial
    rw [hX]
    exact Element.modifyChild_eq_self hc (hps ▸ hff)

/-- When `get_primary_serial` returns, the first serial of the first `devices` has a target. -/
theorem getPrimarySerial_target {D : Element} {f : SerialFeatures}
    (h : getPrimarySerial D = .ok f) (hi : D.find "devices" = some i)
    (hdv : D.child? i = some dv) : ((primarySerial dv).find "target").isSome := by
  have hfind := Element.bind_child?_find dv "serial"
  cases hj : dv.find "serial" with
  | none => simp [getPrimarySerial, hi, Element.findAt, hdv, hj] at h
  | some j =>
    obtain ⟨s, hs, -⟩ := Element.child?_of_find hj
    have hps : primarySerial dv = s := by simp [primarySerial, ← hfind, hj, hs]
    rw [hps]
    cases hk : s.find "target" with
    | none => simp [getPrimarySerial, hi, Element.findAt, hdv, hj, hs, hk] at h
    | some k => rfl

/-- When `get_primary_serial` raises, the serial the edits reach is the new one. -/
theorem primarySerialOrNew_new {D D' : Element} {p : Path}
    (hg : ∀ f, getPrimarySerial D ≠ .ok f) (h : primarySerialOrNew D = .ok (D', p)) :
    D'.getAt? p = some newSerial := by
  unfold primarySerialOrNew at h
  split at h
  · rename_i f hf
    exact absurd hf (hg f)
  · cases h₁ : D.subElementAt ((D.find "devices").map ([·])) "serial" [("type", "pty")] with
    | error e => simp [h₁, bind, Except.bind] at h
    | ok v =>
      obtain ⟨D₁, s⟩ := v
      cases h₂ : D₁.subElementAt (some s) "target" [("port", "0")] with
      | error e => simp [h₁, h₂, bind, Except.bind] at h
      | ok v₂ =>
        obtain ⟨D₂, r₂⟩ := v₂
        simp only [h₁, h₂, bind, Except.bind, pure, Except.pure, Except.ok.injEq,
          Prod.mk.injEq] at h
        obtain ⟨rfl, rfl⟩ := h
        obtain ⟨q, hq, rfl, -⟩ := Element.subElementAt_eq_ok h₂
        cases hq
        rw [Element.getAt?_modifyAt_self, Element.getAt?_of_subElementAt h₁]
        rfl
  · cases h

/-- **With a path, the edit returns only by editing the first serial in place**, one that has a
target and a source: a new serial has no source, so the path branch raises on it. -/
theorem primarySerialUpdate_some {D D' : Element} {type port v : String}
    (h : primarySerialUpdate type port (some v) D = .ok D') :
    ∃ i dv, D.find "devices" = some i ∧ D.child? i = some dv ∧
      ((primarySerial dv).find "target").isSome ∧ ((primarySerial dv).find "source").isSome ∧
      D' = D.modifyChild i (withPrimarySerial (serialEdit type port (some v))) := by
  cases hi : D.find "devices" with
  | none =>
    simp [primarySerialUpdate, primarySerialOrNew, getPrimarySerial, hi, Element.subElementAt,
      bind, Except.bind] at h
  | some i =>
    obtain ⟨dv, hdv, -⟩ := Element.child?_of_find hi
    by_cases ht : ((primarySerial dv).find "target").isSome
    · obtain ⟨D₁, j, hD₁, hget, hmod⟩ := primarySerialOrNew_eq hi hdv ht
      simp only [primarySerialUpdate, hD₁, bind, Except.bind,
        editSerial_eq type port hget ht] at h
      split at h
      · cases h
      · rename_i hsrc
        cases h
        refine ⟨i, dv, rfl, hdv, ht, ?_, hmod _⟩
        simpa [Option.isSome_iff_ne_none] using hsrc
    · have hg : ∀ f, getPrimarySerial D ≠ .ok f := fun f hf => ht (getPrimarySerial_target hf hi hdv)
      cases hs : primarySerialOrNew D with
      | error e => simp [primarySerialUpdate, hs, bind, Except.bind] at h
      | ok r =>
        simp only [primarySerialUpdate, hs, bind, Except.bind,
          editSerial_eq type port (primarySerialOrNew_new hg hs) rfl] at h
        cases h

/-- **`set_primary_serial`'s edit with a path, made twice, is made once.** -/
theorem primarySerialUpdate_primarySerialUpdate {D D' : Element} {type port v : String}
    (h : primarySerialUpdate type port (some v) D = .ok D') :
    primarySerialUpdate type port (some v) D' = .ok D' := by
  obtain ⟨i, dv, hi, hdv, ht, hs, rfl⟩ := primarySerialUpdate_some h
  set S := serialEdit type port (some v)
  have hS : ∀ x, (S x).tag = x.tag := serialEdit_tag type port (some v)
  have hps := primarySerial_withPrimarySerial hS dv
  have ht₀ := (Element.find_isSome_iff _ _).mp ht
  have hs₀ := (Element.find_isSome_iff _ _).mp hs
  -- the edited serial keeps a target and a source
  have ht' : ((primarySerial (withPrimarySerial S dv)).find "target").isSome := by
    obtain ⟨x, hx, -⟩ := Option.bind_eq_some.mp (serialEdit_port type port ht₀ (some v))
    rw [hps, Element.find_isSome_iff, hx]
    rfl
  have hs' : ((primarySerial (withPrimarySerial S dv)).find "source").isSome := by
    obtain ⟨x, hx, -⟩ := Option.bind_eq_some.mp (serialEdit_path type port hs₀ v)
    rw [hps, Element.find_isSome_iff, hx]
    rfl
  have hi' : (D.modifyChild i (withPrimarySerial S)).find "devices" = some i := by
    rw [Element.find_modifyChild _ _ (withPrimarySerial_tag S), hi]
  have hdv' : (D.modifyChild i (withPrimarySerial S)).child? i =
      some (withPrimarySerial S dv) := by
    rw [Element.child?_modifyChild_self, hdv]
    rfl
  obtain ⟨D₁, j, hD₁, hget, hmod⟩ := primarySerialOrNew_eq hi' hdv' ht'
  simp only [primarySerialUpdate, hD₁, bind, Except.bind, editSerial_eq type port hget ht',
    hmod, Element.modifyChild_modifyChild]
  rw [if_neg (by simpa [Option.isSome_iff_ne_none] using hs')]
  exact congrArg Except.ok (Element.modifyChild_congr hdv
    (withPrimarySerial_withPrimarySerial hS dv (serialEdit_serialEdit type port ht₀ hs₀ v)))

variable {w : World} {n : String}

/-- **`set_primary_serial`, run to its end**: after the dump it raises `AttributeError` when a
path is given and the serial has no source, with nothing undefined; otherwise it redefines the
document whose `devices` is edited by `withPrimarySerial (serialEdit type port path)`. -/
theorem setPrimarySerial_run (hD : w.store.defs n = some D) (h0 : w.replyAt 0 = .ok)
    (hi : D.find "devices" = some i) (hdv : D.child? i = some dv)
    (ht : ((primarySerial dv).find "target").isSome) (type port : String) (path : Option String) :
    setPrimarySerial n type port path w =
      if path.isSome ∧ (primarySerial dv).find "source" = none then
        .error .attributeError (w.next (.dumpxml n))
      else redefine (D.modifyChild i (withPrimarySerial (serialEdit type port path)))
        (w.next (.dumpxml n)) := by
  obtain ⟨D', j, hD', hget, hmod⟩ := primarySerialOrNew_eq hi hdv ht
  simp only [setPrimarySerial, editDomain, primarySerialUpdate, bind, EStateM.bind, Except.bind,
    newFromDumpxml, Virsh.dumpxml_run, h0, hD, hD', editSerial_eq type port hget ht path]
  by_cases hc : path.isSome ∧ (primarySerial dv).find "source" = none
  · rw [if_pos hc, if_pos hc]; rfl
  · rw [if_neg hc, if_neg hc, hmod]; rfl

/-- **`set_primary_serial` when it completes**: with the serial's target in place, a source
there when a path is given, and both calls answered, the domain is redefined with `devices`
edited by `withPrimarySerial (serialEdit type port path)`, and no other domain changes. -/
theorem setPrimarySerial_ok (hD : w.store.defs n = some D) (h0 : w.replyAt 0 = .ok)
    (h1 : w.replyAt 1 = .ok) (h2 : w.replyAt 2 = .ok)
    (hi : D.find "devices" = some i) (hdv : D.child? i = some dv)
    (ht : ((primarySerial dv).find "target").isSome) (type port : String) (path : Option String)
    (hsrc : path.isSome → ((primarySerial dv).find "source").isSome) :
    ∃ w', setPrimarySerial n type port path w = .ok () w' ∧ ∀ m, w'.store.defs m =
      if m = n then some (D.modifyChild i (withPrimarySerial (serialEdit type port path)))
      else w.store.defs m := by
  have hn : domainName (D.modifyChild i (withPrimarySerial (serialEdit type port path))) =
      some n := by
    rw [domainName_modifyChild (tag_ne_of_find (by decide) hi) (withPrimarySerial_tag _)]
    exact w.store.filed n D hD
  have hc : ¬ (path.isSome ∧ (primarySerial dv).find "source" = none) := fun ⟨hp, hs⟩ => by
    simpa [hs] using hsrc hp
  rw [setPrimarySerial_run hD h0 hi hdv ht, if_neg hc]
  simpa using redefine_ok hn (w := w.next (.dumpxml n)) (by simpa using h1) (by simpa using h2)

end PrimarySerial

/-- **A path needs a source that is already there.**  `vm1`'s serial is `pty` with target port
`0` and no source, what the spec's first call of its end-to-end run leaves behind:
`set_primary_serial("vm1", "pty", "0", "/dev/pts/1")` raises `AttributeError` right after the
dump, and `vm1` is neither undefined nor redefined. -/
theorem setPrimarySerial_path_without_source :
    setPrimarySerial "vm1" "pty" "0" (some "/dev/pts/1") (exampleWorld []) =
      .error .attributeError ((exampleWorld []).next (.dumpxml "vm1")) := by
  rw [setPrimarySerial_run (w := exampleWorld []) (n := "vm1") (D := exampleDomain) (i := 2) rfl
    rfl (by decide) rfl (by decide),
    if_pos (by decide)]

/-! ## 4. Every path keeps the name

`set_primary_serial` also runs where the theorems above do not reach: a first serial with no
target, a new serial whose edits raise, a `devices` with no serial.  On every path that returns,
the serial is found or made below `devices` (`primarySerialOrNew_domainName`) and every edit is
made below the serial (`editSerial_domainName`), so the edit keeps the document's name
(`primarySerialUpdate_domainName`) and `define` files it where `undefine` removed it
(`touches_setPrimarySerial`). -/

theorem getPrimarySerial_serial {D : Element} {f : SerialFeatures}
    (h : getPrimarySerial D = .ok f) :
    ∃ i, D.find "devices" = some i ∧ f.serial.head? = some i := by
  unfold getPrimarySerial at h
  split at h
  · cases h
  · rename_i serial hs
    obtain ⟨i, hi, hsi⟩ := Option.bind_eq_some.mp hs
    obtain ⟨j, rfl⟩ := Element.findAt_eq_some hsi
    split at h
    · cases h; exact ⟨i, hi, rfl⟩
    · cases h

theorem primarySerialOrNew_domainName {D D' : Element} {p : Path}
    (h : primarySerialOrNew D = .ok (D', p)) :
    domainName D' = domainName D ∧ ∃ i, p.head? = some i ∧ OffName D' i := by
  unfold primarySerialOrNew at h
  split at h
  · rename_i f hf
    cases h
    obtain ⟨i, hi, hs⟩ := getPrimarySerial_serial hf
    exact ⟨rfl, i, hs, tag_ne_of_find (by decide) hi⟩
  · cases h₁ : D.subElementAt ((D.find "devices").map ([·])) "serial" [("type", "pty")] with
    | error e => simp [h₁, bind, Except.bind] at h
    | ok v =>
      obtain ⟨D₁, s⟩ := v
      cases h₂ : D₁.subElementAt (some s) "target" [("port", "0")] with
      | error e => simp [h₁, h₂, bind, Except.bind] at h
      | ok v₂ =>
        obtain ⟨D₂, r₂⟩ := v₂
        simp only [h₁, h₂, bind, Except.bind, pure, Except.pure, Except.ok.injEq,
          Prod.mk.injEq] at h
        obtain ⟨rfl, rfl⟩ := h
        obtain ⟨p₁, hp₁, rfl, k, rfl⟩ := Element.subElementAt_eq_ok h₁
        obtain ⟨p₂, hp₂, rfl, -⟩ := Element.subElementAt_eq_ok h₂
        cases hp₂
        obtain ⟨i, hi, rfl⟩ := Option.map_eq_some'.mp hp₁
        obtain ⟨n₁, o₁⟩ := offName_modifyAt (tag_ne_of_find (by decide) hi)
          (Element.tag_subElement · "serial" [("type", "pty")]) (p := [i]) rfl
        obtain ⟨n₂, o₂⟩ := offName_modifyAt o₁
          (Element.tag_subElement · "target" [("port", "0")]) (p := [i] ++ [k]) rfl
        exact ⟨n₂.trans n₁, i, rfl, o₂⟩
  · cases h

theorem editSerial_domainName {D D' : Element} {i : Nat} {p : Path} (hi : OffName D i)
    (hp : p.head? = some i) {type port : String} {path : Option String}
    (h : editSerial D p type port path = .ok D') : domainName D' = domainName D := by
  -- an edit that returns has found the serial's target, so it is `serialEdit` at the serial
  obtain ⟨s, hs, ht⟩ : ∃ s, D.getAt? p = some s ∧ (s.find "target").isSome := by
    unfold editSerial at h
    cases hf : (D.modifyAt p (·.set "type" type)).findAt p "target" with
    | none => simp [hf, throw, throwThe, MonadExceptOf.throw] at h
    | some tg =>
      simp only [Element.findAt, Element.getAt?_modifyAt_self, Option.bind_eq_some,
        Option.map_eq_some'] at hf
      obtain ⟨_, ⟨s, hs, rfl⟩, k, hk, -⟩ := hf
      exact ⟨s, hs, by rw [← Element.find_set s "type" type, hk]; rfl⟩
  rw [editSerial_eq type port hs ht] at h
  split at h
  · cases h
  · cases h
    exact (offName_modifyAt hi (fun x => by cases path <;> simp [serialEdit]) hp).1

/-- **The edit keeps the name**, on every path that returns. -/
theorem primarySerialUpdate_domainName {D D' : Element} {type port : String}
    {path : Option String} (h : primarySerialUpdate type port path D = .ok D') :
    domainName D' = domainName D := by
  cases hs : primarySerialOrNew D with
  | error e => simp [primarySerialUpdate, hs, bind, Except.bind] at h
  | ok v =>
    obtain ⟨D', p⟩ := v
    simp only [primarySerialUpdate, hs, bind, Except.bind] at h
    obtain ⟨hn, _, hp, ho⟩ := primarySerialOrNew_domainName hs
    rw [editSerial_domainName ho hp h, hn]

/-- `set_primary_serial(n, …)` changes the definition filed under `n` and no other, on every
path. -/
theorem touches_setPrimarySerial (n type port : String) (path : Option String) :
    Touches [n] (fun _ => True) (setPrimarySerial n type port path) :=
  touches_editDomain fun _ _ hD h => (primarySerialUpdate_domainName h).trans hD

end VMXML

end LibvirtXml
